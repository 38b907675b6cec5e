import Mathlib.Algebra.GroupWithZero.Nat
import ShapeMatch.Proofs.KeyPattern
import ShapeMatch.Proofs.Object.Requirement
import ShapeMatch.Proofs.Object.Verdict

/-!
# What a discrepancy tells

When an object cannot be reconciled with its rules, the discrepancy is about the first obstacle. Its
numbers are costs of rules and counts of fields, its keys are keys of the object, and whatever comes
before the obstacle is fine: rules on named fields go before wildcards, and both go before fields
that are left over.

## Main definitions

* `FieldRule.Passes`: a rule on a named field is content with an object.
* `Discrepancy.IsTrue`: what a discrepancy says about rules and an object.

## Main statements

* `Schema.isTrue_of_reconcile`: each discrepancy is true.
-/

namespace ShapeMatch

/-- A rule on a named field is content: it accepts the field within the object, or there is none and
there need not be. -/
def FieldRule.Passes (o : Object) (r : FieldRule Matcher) : Prop :=
  match o.get? r.name with
  | some v => r.value.matchesIn o v = true
  | none => r.optional = true

/-- How many fields the tests of a scope cost. -/
def ObjectRules.scopeCost (rules : ObjectRules Matcher) (scope : Scope) : Nat :=
  ((rules.tests.filter (·.scope == scope)).map Test.cost).sum

/-- What a discrepancy between rules and an object says. -/
inductive Discrepancy.IsTrue (rules : ObjectRules Matcher) (o : Object) : Discrepancy → Prop
  /-- The tests of named fields cost more fields than the object has. -/
  | fewFields (hless : o.length < rules.scopeCost .bound) :
      IsTrue rules o (.notEnoughPairs .bound (rules.scopeCost .bound) o.length)
  /-- The named fields pass, and the other tests cost more than the fields without a name. -/
  | fewUnnamed (hpass : ∀ r ∈ rules.fields, r.Passes o)
      (hless : o.keys.countP (!rules.names ·) < rules.scopeCost .free) :
      IsTrue rules o
        (.notEnoughPairs .free (rules.scopeCost .free) (o.keys.countP (!rules.names ·)))
  /-- The first rule on a named field that does not pass refuses the field. -/
  | refused {before after : List (FieldRule Matcher)} {r : FieldRule Matcher} {v : Value}
      (hsplit : rules.fields = before ++ r :: after) (hbefore : ∀ b ∈ before, b.Passes o)
      (hfield : o.get? r.name = some v) (hrefused : r.value.matchesIn o v = false) :
      IsTrue rules o (.rejected r.source r.name)
  /-- The first rule on a named field that does not pass must claim one that is not there. -/
  | absent {before after : List (FieldRule Matcher)} {r : FieldRule Matcher}
      (hsplit : rules.fields = before ++ r :: after) (hbefore : ∀ b ∈ before, b.Passes o)
      (hsource : r.source = r.name) (hcost : r.cost = 1) (hnone : r.name ∉ o.keys) :
      IsTrue rules o (.unsatisfied r.name 1 0)
  /-- The named fields pass, and the first requirement that cannot be served is a wildcard. As many
  fields are claimed as its group has earlier requirements. -/
  | group {before : List (Requirement Matcher)} {owner : Nat} {r : WildcardRule Matcher}
      {g : WildcardGroup Matcher} (hpass : ∀ r ∈ rules.fields, r.Passes o)
      (hfirst : FirstUnserved o (rules.unnamed o) rules.requirements before ⟨owner, r⟩)
      (hgroup : rules.groups[owner]? = some g) (hmember : r ∈ g.members)
      (hless : before.countP (·.owner == owner) < (g.members.map WildcardRule.cost).sum) :
      IsTrue rules o (.unsatisfied (", ".intercalate (g.members.map (·.source)))
        (g.members.map WildcardRule.cost).sum (before.countP (·.owner == owner)))
  /-- The named fields pass, and the first requirement that cannot be served is the catch-all. -/
  | catchAll {before : List (Requirement Matcher)} {owner : Nat} {r : WildcardRule Matcher}
      (hpass : ∀ r ∈ rules.fields, r.Passes o)
      (hfirst : FirstUnserved o (rules.unnamed o) rules.requirements before ⟨owner, r⟩)
      (hcatchAll : rules.catchAll = some r) (hcost : r.cost = 1) :
      IsTrue rules o (.unsatisfied r.source 1 0)
  /-- The named fields pass, and some fields are left that no rule names. -/
  | leftOver {keys : List String} (hpass : ∀ r ∈ rules.fields, r.Passes o) (hne : keys ≠ [])
      (hsorted : keys.Pairwise (· < ·))
      (hkeys : ∀ key ∈ keys, key ∈ o.keys ∧ rules.names key = false) :
      IsTrue rules o (.unclaimed keys)

variable {rules : ObjectRules Matcher} {o pending : Object} {d : Discrepancy}

theorem FieldRule.passes_iff_metBy {r : FieldRule Matcher} :
    r.Passes o ↔ (r.map fun m => m.judge (some o)).demand.MetBy o := by
  rw [metBy_demand_iff]
  rfl

namespace ObjectRules

/-! ## Costs -/

theorem sum_map_costOf {α : Type} (optional : α → Bool) (l : List α) :
    (l.map fun a => costOf (optional a)).sum = l.countP (!optional ·) := by
  induction l with
  | nil => rfl
  | cons a rest ih =>
    rw [List.map_cons, List.sum_cons, ih, List.countP_cons]
    cases optional a <;> simp [costOf, Nat.add_comm]

theorem sum_cost_members (g : WildcardGroup Matcher) :
    (g.members.map WildcardRule.cost).sum = g.required :=
  sum_map_costOf _ _

theorem scopeCost_bound (rules : ObjectRules Matcher) :
    rules.scopeCost .bound = rules.boundCost := by
  have htests : rules.tests.filter (·.scope == .bound) = rules.fields.map FieldRule.toTest := by
    simp [tests, List.filter_flatMap, List.filter_map, Function.comp_def, FieldRule.toTest,
      WildcardRule.toTest, Option.toList_map]
  rw [scopeCost, htests, List.map_map]
  exact sum_map_costOf _ _

theorem scopeCost_free (rules : ObjectRules Matcher) :
    rules.scopeCost .free = rules.freeCost := by
  have htests : rules.tests.filter (·.scope == .free) =
      (rules.groups.flatMap WildcardGroup.members).map (WildcardRule.toTest (.finite 1)) ++
        rules.catchAll.toList.map (WildcardRule.toTest .unbounded) := by
    simp [tests, List.filter_flatMap, List.filter_map, Function.comp_def, FieldRule.toTest,
      WildcardRule.toTest, Option.toList_map, List.map_flatMap]
  rw [scopeCost, htests, List.map_append, List.sum_append, List.map_map, List.map_map, freeCost]
  congr 1
  · exact sum_map_costOf _ _
  · cases rules.catchAll <;> simp [WildcardRule.toTest]

@[simp] theorem freeCost_map {α β : Type} (f : α → β) (rules : ObjectRules α) :
    (rules.map f).freeCost = rules.freeCost := by
  have hmembers : (rules.groups.map (·.map f)).flatMap WildcardGroup.members =
      (rules.groups.flatMap WildcardGroup.members).map (·.map f) := by
    rw [List.flatMap_map, List.map_flatMap]
    rfl
  rw [freeCost, freeCost, ObjectRules.map, hmembers, List.countP_map]
  cases rules.catchAll <;> rfl

/-! ## Named fields -/

/-- The first rule on a named field that is not met decides. -/
theorem claimEach_eq_error {fields : List (FieldRule (Value → Bool))}
    (h : claimEach o fields pending = .error d) :
    ∃ before r after, fields = before ++ r :: after ∧ (∀ b ∈ before, b.demand.MetBy o) ∧
      ((∃ v, o.get? r.name = some v ∧ r.value v = false ∧ d = .rejected r.source r.name) ∨
        (o.get? r.name = none ∧ r.optional = false ∧ d = .unsatisfied r.source 1 0)) := by
  induction fields generalizing pending with
  | nil => cases h
  | cons r rest ih =>
    -- a rule that is met goes before those of the rest
    have hlater : ∀ {pending' : Object}, r.demand.MetBy o →
        claimEach o rest pending' = .error d →
        ∃ before r' after, r :: rest = before ++ r' :: after ∧ (∀ b ∈ before, b.demand.MetBy o) ∧
          ((∃ v, o.get? r'.name = some v ∧ r'.value v = false ∧
              d = .rejected r'.source r'.name) ∨
            (o.get? r'.name = none ∧ r'.optional = false ∧ d = .unsatisfied r'.source 1 0)) := by
      intro pending' hmet hrest
      obtain ⟨before, r', after, rfl, hbefore, hfails⟩ := ih hrest
      exact ⟨r :: before, r', after, rfl, List.forall_mem_cons.mpr ⟨hmet, hbefore⟩, hfails⟩
    rw [FieldRule.metBy_demand_iff] at hlater
    rw [claimEach] at h
    cases hfield : o.get? r.name with
    | some v =>
      simp only [hfield] at h hlater
      split at h
      next hv => exact hlater hv h
      next hv =>
        exact ⟨[], r, rest, rfl, by simp, .inl ⟨v, hfield, by simpa using hv, by cases h; rfl⟩⟩
    | none =>
      simp only [hfield] at h hlater
      split at h
      next hr => exact hlater hr h
      next hr =>
        have hrequired : r.optional = false := by simpa using hr
        refine ⟨[], r, rest, rfl, by simp, .inr ⟨hfield, hrequired, ?_⟩⟩
        rw [FieldRule.cost, hrequired] at h
        exact (Except.error.inj h).symm

/-- Named fields that fail within an object. -/
theorem isTrue_of_claimFields (hsource : ∀ r ∈ rules.fields, r.optional = false → r.source = r.name)
    (h : (rules.within o).claimFields o = .error d) : d.IsTrue rules o := by
  have hcost : (rules.within o).boundCost = rules.scopeCost .bound := by
    rw [within, boundCost_map, scopeCost_bound]
  rw [claimFields, hcost] at h
  split at h
  next hless =>
    cases h
    exact .fewFields hless
  next =>
    obtain ⟨_, _, _, hsplit, hbefore, hfails⟩ := claimEach_eq_error h
    obtain ⟨before, others, hfields, rfl, hothers⟩ := List.map_eq_append_iff.mp hsplit
    obtain ⟨r, after, rfl, rfl, -⟩ := List.map_eq_cons_iff.mp hothers
    have hpass : ∀ b ∈ before, b.Passes o := fun b hb =>
      FieldRule.passes_iff_metBy.mpr (hbefore _ (List.mem_map_of_mem hb))
    rcases hfails with ⟨v, hfield, hrefused, rfl⟩ | ⟨hnone, hrequired, rfl⟩
    · exact .refused hfields hpass hfield hrefused
    · have hr : r.optional = false := hrequired
      have hname := hsource r (by simp [hfields]) hr
      have hcost : r.cost = 1 := by rw [FieldRule.cost, hr]; rfl
      have habsent : r.name ∉ o.keys := Object.get?_eq_none_iff.mp hnone
      change Discrepancy.IsTrue rules o (.unsatisfied r.source 1 0)
      rw [hname]
      exact .absent hfields hpass hname hcost habsent

/-! ## Requirements -/

/-- Of numbered elements, only the one with a given number counts. -/
theorem sum_zipIdx_eq {α : Type} (f : α → Nat) (l : List α) (start position : Nat) :
    ((l.zipIdx start).map fun p => if p.2 = start + position then f p.1 else 0).sum =
      (l[position]?).elim 0 f := by
  induction l generalizing start position with
  | nil => rfl
  | cons a rest ih =>
    rw [List.zipIdx_cons, List.map_cons, List.sum_cons]
    cases position with
    | zero =>
      have hrest : ∀ p ∈ rest.zipIdx (start + 1), (if p.2 = start + 0 then f p.1 else 0) = 0 := by
        intro p hp
        have hle := (List.mem_zipIdx hp).1
        exact if_neg (by omega)
      rw [List.map_congr_left hrest]
      simp
    | succ position =>
      have hnext : start + (position + 1) = start + 1 + position := by omega
      have hne : start ≠ start + 1 + position := by omega
      simp only [hnext, ih, if_neg hne, Nat.zero_add, List.getElem?_cons_succ]

/-- A requirement belongs to a wildcard of the group that its owner numbers, or to the catch-all. -/
theorem mem_requirements {need : Requirement Matcher} (h : need ∈ rules.requirements) :
    need.rule.optional = false ∧
      ((∃ g, rules.groups[need.owner]? = some g ∧ need.rule ∈ g.members) ∨
        (need.owner = rules.groups.length ∧ rules.catchAll = some need.rule)) := by
  rw [requirements, List.mem_append, List.mem_flatMap, List.mem_map] at h
  rcases h with ⟨⟨g, owner⟩, hg, hneed⟩ | ⟨r, hr, rfl⟩
  · obtain ⟨r, hr, rfl⟩ := List.mem_map.mp hneed
    obtain ⟨hmember, hrequired⟩ := List.mem_filter.mp hr
    refine ⟨by simpa using hrequired, .inl ⟨g, ?_, hmember⟩⟩
    exact List.mk_mem_zipIdx_iff_getElem?.mp hg
  · obtain ⟨hr, hrequired⟩ := List.mem_filter.mp hr
    exact ⟨by simpa using hrequired, .inr ⟨rfl, by simpa using hr⟩⟩

/-- A group has as many requirements as it must claim fields, and so has the catch-all. -/
theorem countP_owner_requirements (rules : ObjectRules Matcher) (owner : Nat) :
    rules.requirements.countP (·.owner == owner) =
      (rules.groups[owner]?).elim 0 WildcardGroup.required +
        if owner = rules.groups.length then rules.catchAll.elim 0 WildcardRule.cost else 0 := by
  rw [requirements, List.countP_append, List.countP_flatMap]
  congr 1
  · rw [← sum_zipIdx_eq WildcardGroup.required rules.groups 0 owner]
    congr 1
    apply List.map_congr_left
    rintro ⟨g, number⟩ -
    change ((g.members.filter (!·.optional)).map (Requirement.mk number)).countP
      (·.owner == owner) = if number = 0 + owner then g.required else 0
    rw [List.countP_map, Nat.zero_add, WildcardGroup.required]
    split
    next h => simp [Function.comp_def, h, List.countP_eq_length_filter]
    next h => simp [Function.comp_def, h]
  · rw [List.countP_map]
    split
    next h =>
      cases rules.catchAll with
      | none => rfl
      | some r => cases hr : r.optional <;> simp [h, hr, WildcardRule.cost, costOf]
    next h => simp [Function.comp_def, Ne.symm h]

/-- Fields that are not placed are listed in the order of the fields. -/
theorem unplaced_sublist (pending : Object) {slots : Nat} (p : Placement pending.length slots) :
    (p.unplaced.map fun pair => (pending.get pair).1).Sublist (pending.map Prod.fst) := by
  have hall : (List.finRange pending.length).map (fun pair => (pending.get pair).1) =
      pending.map Prod.fst := by
    conv_rhs => rw [← List.map_get_finRange pending, List.map_map]
    rfl
  exact hall ▸ List.filter_sublist.map _

/-- Requirements that come before one of the same owner are fewer than what the owner must claim. -/
theorem countP_owner_lt {before : List (Requirement Matcher)} {need : Requirement Matcher}
    (h : FirstUnserved o pending rules.requirements before need) :
    before.countP (·.owner == need.owner) <
      rules.requirements.countP (·.owner == need.owner) := by
  obtain ⟨after, hsplit⟩ := h.split
  rw [hsplit, List.countP_append, List.countP_cons]
  simp only [beq_self_eq_true, if_true]
  omega

end ObjectRules

namespace Schema

variable {interp : Interpretation} {entries : List (String × Schema)}

theorem source_eq_name_of_required (hrules : compileRules interp entries = .ok rules)
    {r : FieldRule Matcher} (hr : r ∈ rules.fields) (hrequired : r.optional = false) :
    r.source = r.name := by
  obtain ⟨compiled, -, hcompiled⟩ := bind_eq_ok.1 hrules
  rw [ObjectRules.fields_ofEntries hcompiled] at hr
  obtain ⟨e, -, he⟩ := List.mem_filterMap.mp hr
  obtain ⟨hpattern, hsource, -⟩ := ObjectRules.fieldRule?_eq_some_iff.mp he
  rw [hrequired] at hpattern
  rw [← hsource]
  exact KeyPattern.eq_of_ofKey_eq hpattern

/-- A requirement that stays unserved is reported with the rules that it belongs to. -/
theorem isTrue_shortage (hpass : ∀ r ∈ rules.fields, r.Passes o)
    {before : List (Requirement Matcher)} {need : Requirement Matcher}
    (hfirst : FirstUnserved o (rules.unnamed o) rules.requirements before need) :
    ((rules.within o).shortage need.owner
      (before.countP (·.owner == need.owner))).IsTrue rules o := by
  obtain ⟨owner, r⟩ := need
  obtain ⟨after, hsplit⟩ := hfirst.split
  have hless := ObjectRules.countP_owner_lt hfirst
  rw [ObjectRules.countP_owner_requirements] at hless
  obtain ⟨hrequired, ⟨g, hgroup, hmember⟩ | ⟨rfl, hcatchAll⟩⟩ :=
    ObjectRules.mem_requirements (by rw [hsplit]; simp : ⟨owner, r⟩ ∈ rules.requirements)
  · have howner : owner ≠ rules.groups.length :=
      (List.getElem?_eq_some_iff.mp hgroup).1.ne
    have hshortage : ∀ claimed, (rules.within o).shortage owner claimed =
        .unsatisfied (", ".intercalate (g.members.map (·.source)))
          (g.members.map WildcardRule.cost).sum claimed := by
      intro claimed
      have hgroup' : (rules.within o).groups[owner]? =
          some (g.map fun m => m.judge (some o)) := by
        simp [ObjectRules.within, ObjectRules.map, hgroup]
      rw [ObjectRules.shortage, hgroup', ObjectRules.sum_cost_members]
      simp [WildcardGroup.label, WildcardGroup.required, WildcardGroup.members,
        WildcardGroup.map, WildcardRule.map, Function.comp_def, List.countP_map, List.countP_cons]
    simp only [hgroup, if_neg howner, Option.elim_some, Nat.add_zero] at hless
    rw [← ObjectRules.sum_cost_members] at hless
    rw [hshortage]
    exact .group hpass hfirst hgroup hmember hless
  · have hcost : r.cost = 1 := by rw [WildcardRule.cost, hrequired]; rfl
    have hnone : rules.groups[rules.groups.length]? = none := by simp
    have hzero : before.countP (·.owner == rules.groups.length) = 0 := by
      simp only [hnone, hcatchAll, if_pos, Option.elim_some, Option.elim_none, hcost] at hless
      omega
    have hshortage : (rules.within o).shortage rules.groups.length 0 =
        .unsatisfied r.source 1 0 := by
      simp [ObjectRules.shortage, ObjectRules.within, ObjectRules.map, hcatchAll, WildcardRule.map]
    rw [hzero, hshortage]
    exact .catchAll hpass hfirst hcatchAll hcost

/-- Other fields that cannot be claimed, after named fields that pass. -/
theorem isTrue_of_claimRest (hrules : compileRules interp entries = .ok rules)
    (hpass : ∀ r ∈ rules.fields, r.Passes o)
    (h : (rules.within o).claimRest (rules.unnamed o) = .error d) : d.IsTrue rules o := by
  by_cases hcost : (rules.unnamed o).length < (rules.within o).freeCost
  · rw [ObjectRules.claimRest, if_pos hcost] at h
    obtain rfl := (Except.error.inj h).symm
    rw [ObjectRules.within, ObjectRules.freeCost_map, ← ObjectRules.scopeCost_free,
      ObjectRules.length_unnamed] at hcost ⊢
    exact .fewUnnamed hpass hcost
  · cases hs : ((rules.within o).board (rules.unnamed o)).settle with
    | ok p => cases (ObjectRules.claimRest_eq_ok_iff.mpr hs).symm.trans h
    | error s =>
      obtain rfl := Except.error.inj
        ((ObjectRules.claimRest_eq_error_of_settle hcost hs rfl).symm.trans h)
      obtain ⟨before, need, hfirst, -, howner, hfilled⟩ := exists_firstUnserved_of_settle hrules hs
      rw [howner, hfilled]
      exact isTrue_shortage hpass hfirst

/-- Each discrepancy between an object and compiled rules is true: it reports the first obstacle,
with the numbers and keys that belong to it. -/
theorem isTrue_of_reconcile (hrules : compileRules interp entries = .ok rules) (ho : o.Sorted)
    (h : (rules.within o).reconcile o = .error d) : d.IsTrue rules o := by
  cases hfields : (rules.within o).claimFields o with
  | error e =>
    obtain rfl : e = d :=
      Except.error.inj ((ObjectRules.reconcile_eq_error_of_claimFields hfields).symm.trans h)
    exact ObjectRules.isTrue_of_claimFields
      (fun _ hr => source_eq_name_of_required hrules hr) hfields
  | ok pending =>
    obtain ⟨-, hmet, hpending⟩ := ObjectRules.claimFields_eq_ok_iff.mp hfields
    have hpass : ∀ r ∈ rules.fields, r.Passes o := fun r hr =>
      FieldRule.passes_iff_metBy.mpr (hmet _ (List.mem_map_of_mem hr))
    rw [ObjectRules.within, ObjectRules.unnamed_map] at hpending
    subst hpending
    cases hrest : (rules.within o).claimRest (rules.unnamed o) with
    | error e =>
      obtain rfl : e = d := Except.error.inj
        ((ObjectRules.reconcile_eq_error_of_claimRest hfields hrest).symm.trans h)
      exact isTrue_of_claimRest hrules hpass hrest
    | ok p =>
      rw [ObjectRules.reconcile_eq_of_claimRest hfields hrest] at h
      split at h
      next => cases h
      next hleft =>
        cases h
        have hsub := ObjectRules.unplaced_sublist (rules.unnamed o) p
        refine .leftOver hpass ?_ ?_ fun key hkey => ?_
        · simpa using hleft
        · exact (List.pairwise_map.mpr (ho.filter _)).sublist hsub
        · obtain ⟨field, hfield, rfl⟩ := List.mem_map.mp (hsub.subset hkey)
          obtain ⟨hmem, hname⟩ := List.mem_filter.mp hfield
          refine ⟨List.mem_map_of_mem hmem, ?_⟩
          simpa [← ObjectRules.names_iff_mem_boundKeys] using hname

/-- The same rules meet objects with too few fields, with a field that is refused before another is
missed, with one that is missing, with too few fields besides the named ones, with one field that
both wildcards ask for, and with one that is left over. -/
theorem isTrue_of_six_objects :
    let one : Value := .num (.int 1)
    let runs : List (Object × Discrepancy) :=
      [([("a", .null)], .notEnoughPairs .bound 2 1),
        ([("a", .null), ("c", .null)], .rejected "a" "a"),
        ([("a", one), ("c", .null)], .unsatisfied "b" 1 0),
        ([("a", one), ("b", .null), ("c", .null)], .notEnoughPairs .free 2 1),
        ([("a", one), ("b", .null), ("c", one), ("d", .null)], .unsatisfied "*x*, *y*" 2 1),
        ([("a", one), ("b", .null), ("c", one), ("d", one), ("e", .null)], .unclaimed ["e"])]
    ∃ rules, compileRules (fun _ _ => true) [("a", .literal one), ("b", .literal .null),
        ("*x*", .literal one), ("*y*", .literal one)] = .ok rules ∧
      ∀ run ∈ runs, run.1.Sorted ∧ (rules.within run.1).reconcile run.1 = .error run.2 ∧
        run.2.IsTrue rules run.1 := by
  intro one runs
  have hruns : ((compileRules (fun _ _ => true) [("a", .literal one), ("b", .literal .null),
      ("*x*", .literal one), ("*y*", .literal one)]).toOption.any fun rules =>
        runs.all fun run => errorOf? ((rules.within run.1).reconcile run.1) == some run.2) =
      true := by
    decide +kernel
  have hsorted : ∀ run ∈ runs, run.1.Sorted := by decide +kernel
  obtain ⟨rules, hrules, hruns⟩ := (Option.any_eq_true _ _).1 hruns
  rw [toOption_eq_some_iff] at hrules
  refine ⟨rules, hrules, fun run hrun => ?_⟩
  have herror := errorOf?_eq_some_iff.mp (by simpa using List.all_eq_true.mp hruns run hrun)
  exact ⟨hsorted run hrun, herror, isTrue_of_reconcile hrules (hsorted run hrun) herror⟩

end Schema

end ShapeMatch
