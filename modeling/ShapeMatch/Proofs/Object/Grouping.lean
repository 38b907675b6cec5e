import ShapeMatch.Proofs.Object.Accounting
import ShapeMatch.Proofs.Object.Reconciliation

/-!
# Rules and the entries they come from

Wildcards whose schemas denote one predicate form a group that tests a value once. Grouping moves
wildcards about but neither drops nor adds any, so rules decide what their entries ask.

## Main statements

* `WildcardGroup.ofWildcards_perm`: groups hold the wildcards they are made of.
* `ObjectRules.reconcile_ofEntries_eq_ok_iff`: when rules can be reconciled with an object, in terms
  of their entries.
-/

namespace ShapeMatch

variable {α : Type}

/-- The first item of a list that has no others is all of it. -/
theorem toList_head? {xs : List α} (h : xs.length ≤ 1) : xs.head?.toList = xs := by
  match xs, h with
  | [], _ => rfl
  | [x], _ => rfl

namespace WildcardGroup

/-! ## Grouping -/

/-- All members of groups that come with their schemas. -/
def membersOf (groups : List (Schema × WildcardGroup α)) : List (WildcardRule α) :=
  groups.flatMap fun g => g.2.members

theorem membersOf_place_perm (s : Schema) (r : WildcardRule α)
    (groups : List (Schema × WildcardGroup α)) :
    (membersOf (place s r groups)).Perm (r :: membersOf groups) := by
  induction groups with
  | nil => rfl
  | cons g rest ih =>
    obtain ⟨t, first, others⟩ := g
    unfold place
    by_cases ht : t.samePredicate s = true
    · have hmove : (first :: others ++ r :: membersOf rest).Perm
          (r :: (first :: others ++ membersOf rest)) := List.perm_middle
      rw [if_pos ht]
      simpa [membersOf, members] using hmove
    · rw [if_neg ht]
      exact (ih.append_left (first :: others)).trans List.perm_middle

theorem membersOf_foldl_perm (ws : List (Schema × WildcardRule α))
    (groups : List (Schema × WildcardGroup α)) :
    (membersOf (ws.foldl (fun groups w => place w.1 w.2 groups) groups)).Perm
      (ws.map (·.2) ++ membersOf groups) := by
  induction ws generalizing groups with
  | nil => rfl
  | cons w ws ih =>
    exact (ih _).trans (((membersOf_place_perm w.1 w.2 groups).append_left _).trans
      List.perm_middle)

/-- Groups hold the wildcards they are made of. -/
theorem ofWildcards_perm (ws : List (Schema × WildcardRule α)) :
    ((ofWildcards ws).flatMap members).Perm (ws.map (·.2)) := by
  simpa [ofWildcards, membersOf, List.flatMap_map] using membersOf_foldl_perm ws []

/-- A group comes with the schema of its first member, and the schemas of the others denote the
same predicate. -/
def Grouped (ws : List (Schema × WildcardRule α)) (g : Schema × WildcardGroup α) : Prop :=
  (g.1, g.2.first) ∈ ws ∧ ∀ r ∈ g.2.others, ∃ t, (t, r) ∈ ws ∧ g.1.samePredicate t = true

theorem grouped_place {ws : List (Schema × WildcardRule α)} {w : Schema × WildcardRule α}
    {groups : List (Schema × WildcardGroup α)} (hw : w ∈ ws)
    (hgroups : ∀ g ∈ groups, Grouped ws g) : ∀ g ∈ place w.1 w.2 groups, Grouped ws g := by
  induction groups with
  | nil => simpa [place, Grouped] using hw
  | cons g rest ih =>
    have hg := hgroups g (by simp)
    have hrest : ∀ g ∈ rest, Grouped ws g := fun x hx => hgroups x (by simp [hx])
    unfold place
    split
    next ht =>
      have hadded : Grouped ws (g.1, { g.2 with others := g.2.others ++ [w.2] }) := by
        refine ⟨hg.1, ?_⟩
        intro r hr
        rcases List.mem_append.mp hr with hr | hr
        · exact hg.2 r hr
        · exact ⟨w.1, by simpa [List.mem_singleton.mp hr] using hw, ht⟩
      exact List.forall_mem_cons.2 ⟨hadded, hrest⟩
    next => exact List.forall_mem_cons.2 ⟨hg, ih hrest⟩

theorem grouped_of_mem_ofWildcards {ws : List (Schema × WildcardRule α)} {g : WildcardGroup α}
    (hg : g ∈ ofWildcards ws) : ∃ s, Grouped ws (s, g) := by
  have hfold : ∀ (rest : List (Schema × WildcardRule α)) (groups : List (Schema × WildcardGroup α)),
      rest ⊆ ws → (∀ g ∈ groups, Grouped ws g) →
        ∀ g ∈ rest.foldl (fun groups w => place w.1 w.2 groups) groups, Grouped ws g := by
    intro rest
    induction rest with
    | nil => exact fun groups _ hgroups => hgroups
    | cons w rest ih =>
      intro groups hsub hgroups
      obtain ⟨hw, hsub⟩ := List.cons_subset.1 hsub
      exact ih _ hsub (grouped_place hw hgroups)
  obtain ⟨⟨s, g⟩, hmem, rfl⟩ := List.mem_map.mp hg
  exact ⟨s, hfold ws [] (List.Subset.refl ws) (by simp) _ hmem⟩

/-- When schemas that denote one predicate come with one value, all members of a group have its
value. -/
theorem value_eq_of_mem_members {β : Type} {f : α → β} {ws : List (Schema × WildcardRule α)}
    (hf : ∀ v ∈ ws, ∀ w ∈ ws, v.1.samePredicate w.1 = true → f v.2.value = f w.2.value)
    {g : WildcardGroup α} (hg : g ∈ ofWildcards ws) {r : WildcardRule α} (hr : r ∈ g.members) :
    f g.value = f r.value := by
  obtain ⟨s, hfirst, hothers⟩ := grouped_of_mem_ofWildcards hg
  rcases List.mem_cons.mp hr with rfl | hr
  · rfl
  · obtain ⟨t, ht, hsame⟩ := hothers r hr
    exact hf _ hfirst _ ht hsame

end WildcardGroup

/-! ## Rules of entries -/

/-- What an entry asks when its value tells how to test. -/
def Entry.demand (test : α → Value → Bool) (e : Entry α) : Demand :=
  ⟨e.pattern, (test e.value · = true)⟩

/-- What a wildcard or a catch-all claims when its value tells how to test. -/
def WildcardRule.claimant (test : α → Value → Bool) (unbounded : Bool) (r : WildcardRule α) :
    Claimant :=
  ⟨(test r.value ·.2 = true), !r.optional, unbounded⟩

/-- How many fields demands claim that account for an object: those they name and all others. -/
def claimedBy (ds : List Demand) (o : Object) : Claimed :=
  ⟨o.length - (unnamedFields ds o).length, (unnamedFields ds o).length⟩

namespace ObjectRules

variable {entries : List (Entry α)} {rules : ObjectRules α} {test : α → Value → Bool}

theorem ofEntries_eq_ok_iff :
    ofEntries entries = .ok rules ↔
      (entries.filterMap Entry.catchAll?).length ≤ 1 ∧
        ⟨entries.filterMap Entry.fieldRule?,
          WildcardGroup.ofWildcards (entries.filterMap Entry.wildcard?),
          (entries.filterMap Entry.catchAll?).head?⟩ = rules := by
  unfold ofEntries
  by_cases h : 1 < (entries.filterMap Entry.catchAll?).length
  · simp only [if_pos h]
    constructor
    · rintro ⟨⟩
    · rintro ⟨hle, -⟩
      omega
  · simp only [if_neg h, Except.ok.injEq]
    exact ⟨fun heq => ⟨by omega, heq⟩, fun ⟨_, heq⟩ => heq⟩

/-- The demands of entries claim what the wildcards and the catch-alls among them claim. -/
theorem filterMap_claimant?_perm (test : α → Value → Bool) (entries : List (Entry α)) :
    (entries.filterMap fun e => (e.demand test).claimant?).Perm
      ((entries.filterMap Entry.wildcard?).map (fun w => w.2.claimant test false) ++
        (entries.filterMap Entry.catchAll?).map (WildcardRule.claimant test true)) := by
  induction entries with
  | nil => rfl
  | cons e rest ih =>
    obtain ⟨key, schema, value⟩ := e
    cases hkey : KeyPattern.ofKey key with
    | mk optional target =>
      cases target with
      | field name =>
        simpa [Entry.demand, Entry.pattern, Entry.wildcard?, Entry.catchAll?, Demand.claimant?,
          hkey] using ih
      | wildcard =>
        simpa [Entry.demand, Entry.pattern, Entry.wildcard?, Entry.catchAll?, Demand.claimant?,
          WildcardRule.claimant, hkey] using ih
      | catchAll =>
        simpa [Entry.demand, Entry.pattern, Entry.wildcard?, Entry.catchAll?, Demand.claimant?,
          WildcardRule.claimant, hkey] using (ih.cons _).trans List.perm_middle.symm

/-- The test of a group may be taken from each member, if wildcards of one predicate are tested
alike. -/
theorem flatMap_groupClaimants {ws : List (Schema × WildcardRule α)}
    (htest : ∀ v ∈ ws, ∀ w ∈ ws, v.1.samePredicate w.1 = true →
      test v.2.value = test w.2.value) :
    ((WildcardGroup.ofWildcards ws).map (·.map test)).flatMap groupClaimants =
      ((WildcardGroup.ofWildcards ws).flatMap WildcardGroup.members).map
        (WildcardRule.claimant test false) := by
  rw [List.flatMap_map, List.map_flatMap]
  refine List.flatMap_congr ?_
  intro g hg
  have hmembers : (g.map test).members = g.members.map (·.map test) := rfl
  have hvalue : (g.map test).value = test g.value := rfl
  rw [groupClaimants, hmembers, hvalue, List.map_map]
  apply List.map_congr_left
  intro r hr
  rw [WildcardGroup.value_eq_of_mem_members htest hg hr]
  rfl

theorem fieldRule?_eq_some_iff {e : Entry α} {r : FieldRule α} :
    e.fieldRule? = some r ↔
      e.pattern = ⟨r.optional, .field r.name⟩ ∧ e.key = r.source ∧ e.value = r.value := by
  obtain ⟨name, optional, source, value⟩ := r
  unfold Entry.fieldRule?
  split <;> grind

theorem exists_fieldRule?_of_target {e : Entry α} {name : String}
    (h : e.pattern.target = .field name) : ∃ r, e.fieldRule? = some r ∧ r.name = name :=
  ⟨⟨name, e.pattern.optional, e.key, e.value⟩,
    fieldRule?_eq_some_iff.mpr ⟨by rw [← h], rfl, rfl⟩, rfl⟩

theorem exists_entry_of_mem_wildcards {w : Schema × WildcardRule α}
    (hw : w ∈ entries.filterMap Entry.wildcard?) :
    ∃ e ∈ entries, e.schema = w.1 ∧ e.value = w.2.value := by
  obtain ⟨e, he, hwe⟩ := List.mem_filterMap.mp hw
  unfold Entry.wildcard? at hwe
  split at hwe <;> cases hwe
  exact ⟨e, he, rfl, rfl⟩

/-- A test has the value of an entry. -/
theorem exists_entry_of_mem_tests (hrules : ofEntries entries = .ok rules) {t : Test α}
    (ht : t ∈ rules.tests) : ∃ e ∈ entries, e.value = t.value := by
  obtain ⟨-, rfl⟩ := ofEntries_eq_ok_iff.mp hrules
  rcases mem_tests_iff.mp ht with ⟨r, hr, rfl⟩ | ⟨g, hg, r, hr, rfl⟩ | ⟨r, hr, rfl⟩
  · obtain ⟨e, he, hr⟩ := List.mem_filterMap.mp hr
    exact ⟨e, he, (fieldRule?_eq_some_iff.mp hr).2.2⟩
  · have hmember := (WildcardGroup.ofWildcards_perm _).subset (List.mem_flatMap.mpr ⟨g, hg, hr⟩)
    obtain ⟨w, hw, rfl⟩ := List.mem_map.mp hmember
    obtain ⟨e, he, -, hvalue⟩ := exists_entry_of_mem_wildcards hw
    exact ⟨e, he, hvalue⟩
  · obtain ⟨e, he, hr⟩ := List.mem_filterMap.mp (List.mem_of_mem_head? hr)
    unfold Entry.catchAll? at hr
    split at hr <;> cases hr
    exact ⟨e, he, rfl⟩

/-- If schemas that denote one predicate are tested alike, each wildcard claims what its own value
tells. -/
theorem claimants_map_eq (hrules : ofEntries entries = .ok rules)
    (htest : ∀ d ∈ entries, ∀ e ∈ entries, d.schema.samePredicate e.schema = true →
      test d.value = test e.value) :
    (rules.map test).claimants =
      (rules.groups.flatMap WildcardGroup.members).map (WildcardRule.claimant test false) ++
        rules.catchAll.toList.map (WildcardRule.claimant test true) := by
  obtain ⟨-, rfl⟩ := ofEntries_eq_ok_iff.mp hrules
  rw [claimants, ObjectRules.map, ← flatMap_groupClaimants]
  · congr 1
    cases (entries.filterMap Entry.catchAll?).head? <;> rfl
  · intro v hv w hw hsame
    obtain ⟨d, hd, hdv, hdv'⟩ := exists_entry_of_mem_wildcards hv
    obtain ⟨e, he, hew, hew'⟩ := exists_entry_of_mem_wildcards hw
    rw [← hdv', ← hew']
    exact htest d hd e he (by rwa [hdv, hew])

/-- If schemas that denote one predicate are tested alike, rules claim what their entries do. -/
theorem claimants_ofEntries_perm (hrules : ofEntries entries = .ok rules)
    (htest : ∀ d ∈ entries, ∀ e ∈ entries, d.schema.samePredicate e.schema = true →
      test d.value = test e.value) :
    (rules.map test).claimants.Perm
      ((entries.map (Entry.demand test)).filterMap Demand.claimant?) := by
  rw [claimants_map_eq hrules htest, List.filterMap_map]
  refine .trans ?_ (filterMap_claimant?_perm test entries).symm
  obtain ⟨hcatchAll, rfl⟩ := ofEntries_eq_ok_iff.mp hrules
  have hwildcards := (WildcardGroup.ofWildcards_perm (entries.filterMap Entry.wildcard?)).map
    (WildcardRule.claimant test false)
  rw [List.map_map] at hwildcards
  rw [toList_head? hcatchAll]
  exact hwildcards.append_right _

theorem fields_ofEntries (hrules : ofEntries entries = .ok rules) :
    rules.fields = entries.filterMap Entry.fieldRule? := by
  obtain ⟨-, rfl⟩ := ofEntries_eq_ok_iff.mp hrules
  rfl

theorem mem_boundKeys_iff (hrules : ofEntries entries = .ok rules) {name : String} :
    name ∈ rules.boundKeys ↔ ∃ e ∈ entries, e.pattern.target = .field name := by
  rw [boundKeys, fields_ofEntries hrules, List.mem_map]
  constructor
  · rintro ⟨r, hr, rfl⟩
    obtain ⟨e, he, hr⟩ := List.mem_filterMap.mp hr
    exact ⟨e, he, by rw [(fieldRule?_eq_some_iff.mp hr).1]⟩
  · rintro ⟨e, he, hname⟩
    obtain ⟨r, hr, hrname⟩ := exists_fieldRule?_of_target hname
    exact ⟨r, List.mem_filterMap.mpr ⟨e, he, hr⟩, hrname⟩

theorem unnamed_ofEntries (hrules : ofEntries entries = .ok rules) (o : Object) :
    rules.unnamed o = unnamedFields (entries.map (Entry.demand test)) o := by
  refine List.filter_congr ?_
  intro field _
  simp [mem_boundKeys_iff hrules, Entry.demand]

theorem demand_eq_of_fieldRule? {e : Entry α} {r : FieldRule α} (h : e.fieldRule? = some r) :
    (r.map test).demand = e.demand test := by
  obtain ⟨hpattern, -, hvalue⟩ := fieldRule?_eq_some_iff.mp h
  simp [FieldRule.demand, FieldRule.map, Entry.demand, hpattern, hvalue]

theorem forall_metBy_iff (hrules : ofEntries entries = .ok rules) {o : Object} :
    (∀ r ∈ (rules.map test).fields, r.demand.MetBy o) ↔
      ∀ d ∈ entries.map (Entry.demand test), d.MetBy o := by
  rw [ObjectRules.map, fields_ofEntries hrules]
  simp only [List.forall_mem_map, List.forall_mem_filterMap]
  refine forall₂_congr fun e _ => ⟨fun h name hname => ?_, fun h r hr => ?_⟩
  · obtain ⟨r, hr, -⟩ := exists_fieldRule?_of_target hname
    rw [← demand_eq_of_fieldRule? hr] at hname ⊢
    exact h r hr name hname
  · rwa [demand_eq_of_fieldRule? hr]

theorem boundCost_ofEntries (hrules : ofEntries entries = .ok rules) :
    rules.boundCost =
      ((entries.map (Entry.demand test)).filterMap fun d => d.key.requiredName?).length := by
  rw [boundCost, fields_ofEntries hrules, List.countP_filterMap, List.length_filterMap_eq_countP,
    List.countP_map]
  apply List.countP_congr
  intro e _
  obtain ⟨key, schema, value⟩ := e
  rcases hkey : KeyPattern.ofKey key with ⟨optional, target⟩
  cases optional <;> cases target <;>
    simp [Entry.fieldRule?, Entry.demand, Entry.pattern, KeyPattern.requiredName?, hkey]

/-- Rules on named fields claim their fields when these meet what their entries ask. -/
theorem claimFields_ofEntries_eq_ok_iff {o left : Object} (hrules : ofEntries entries = .ok rules) :
    (rules.map test).claimFields o = .ok left ↔
      CoversRequired (entries.map (Entry.demand test)) o ∧
        (∀ d ∈ entries.map (Entry.demand test), d.MetBy o) ∧
          unnamedFields (entries.map (Entry.demand test)) o = left := by
  rw [claimFields_eq_ok_iff, unnamed_map, unnamed_ofEntries hrules, boundCost_map,
    boundCost_ofEntries hrules, forall_metBy_iff hrules, CoversRequired]

/-- Rules can be reconciled with an object when the object accounts for what their entries ask, if
schemas that denote one predicate are tested alike. -/
theorem reconcile_ofEntries_eq_ok_iff {o : Object} {claimed : Claimed}
    (hrules : ofEntries entries = .ok rules)
    (htest : ∀ d ∈ entries, ∀ e ∈ entries, d.schema.samePredicate e.schema = true →
      test d.value = test e.value) :
    (rules.map test).reconcile o = .ok claimed ↔
      CoversRequired (entries.map (Entry.demand test)) o ∧
        Accounts (entries.map (Entry.demand test)) o ∧
          claimed = claimedBy (entries.map (Entry.demand test)) o := by
  rw [reconcile_eq_ok_iff, shareable_perm_claimants (claimants_ofEntries_perm hrules htest),
    unnamed_map, unnamed_ofEntries hrules, boundCost_map, boundCost_ofEntries hrules,
    forall_metBy_iff hrules]
  exact and_congr_right fun _ =>
    ⟨fun ⟨hnamed, hothers, hclaimed⟩ => ⟨⟨hnamed, hothers⟩, hclaimed⟩,
      fun ⟨⟨hnamed, hothers⟩, hclaimed⟩ => ⟨hnamed, hothers, hclaimed⟩⟩

end ObjectRules

end ShapeMatch
