import ShapeMatch.Reconcile
import ShapeMatch.Proofs.Assignment.Settle
import ShapeMatch.Proofs.Collection.Distinct
import ShapeMatch.Proofs.Except
import ShapeMatch.Proofs.Object.Accounting
import ShapeMatch.Proofs.Rule

/-!
# What reconciling an object decides

Rules on named fields are tested one after another, and what they leave is settled on a board.
Both together decide a statement without any search: the named fields pass, and the others can be
shared out among the wildcards and the catch-all.

## Main definitions

* `FieldRule.demand`: what a rule on a named field asks.
* `ObjectRules.unnamed`: the fields that no rule names.
* `ObjectRules.claimants`: the wildcards and the catch-all as claimants.

## Main statements

* `ObjectRules.reconcile_eq_ok_iff`: when an object and its rules can be reconciled, and with
  which counts.
* `ObjectRules.acceptsObject_iff`: what the verdict on an object means.
-/

namespace ShapeMatch

/-- What a rule on a named field asks. -/
def FieldRule.demand (r : FieldRule (Value → Bool)) : Demand :=
  ⟨⟨r.optional, .field r.name⟩, (r.value · = true)⟩

theorem FieldRule.metBy_demand_iff {r : FieldRule (Value → Bool)} {o : Object} :
    r.demand.MetBy o ↔
      match o.get? r.name with
      | some v => r.value v = true
      | none => r.optional = true := by
  constructor
  · exact fun h => h r.name rfl
  · rintro h name ⟨⟩
    exact h

namespace ObjectRules

/-- The fields that no rule names. -/
def unnamed {α : Type} (rules : ObjectRules α) (o : Object) : Object :=
  o.filter fun field => field.1 ∉ rules.boundKeys

@[simp] theorem unnamed_map {α β : Type} (f : α → β) (rules : ObjectRules α) (o : Object) :
    (rules.map f).unnamed o = rules.unnamed o := by
  rw [unnamed, unnamed, boundKeys_map]

variable {o pending left : Object} {rules : ObjectRules (Value → Bool)}

/-! ## Named fields -/

theorem filter_key_ne_eq_self {name : String} (h : o.get? name = none) (hsub : pending ⊆ o) :
    pending.filter (·.1 != name) = pending := by
  apply List.filter_eq_self.2
  intro field hfield
  have hne := List.lookup_eq_none_iff.mp h field (hsub hfield)
  simpa [bne_comm] using hne

/-- Rules on named fields claim their fields when all of them are met. -/
theorem claimEach_eq_ok_iff {fields : List (FieldRule (Value → Bool))} (hsub : pending ⊆ o) :
    claimEach o fields pending = .ok left ↔
      (∀ r ∈ fields, r.demand.MetBy o) ∧
        pending.filter (fun field => field.1 ∉ fields.map (·.name)) = left := by
  induction fields generalizing pending with
  | nil => simp [claimEach]
  | cons r rest ih =>
    have hmet : (∀ x ∈ r :: rest, x.demand.MetBy o) ↔
        r.demand.MetBy o ∧ ∀ x ∈ rest, x.demand.MetBy o := List.forall_mem_cons
    have hleft : pending.filter (fun field => field.1 ∉ (r :: rest).map (·.name)) =
        (pending.filter (·.1 != r.name)).filter fun field => field.1 ∉ rest.map (·.name) := by
      rw [List.filter_filter]
      exact List.filter_congr fun field _ => by grind
    rw [hmet, hleft, claimEach]
    cases hget : o.get? r.name with
    | some v =>
      have hfield : r.demand.MetBy o ↔ r.value v = true := by rw [FieldRule.metBy_demand_iff, hget]
      by_cases hv : r.value v = true
      · simp [hv, hfield, ih (List.Subset.trans (List.filter_subset_self _) hsub)]
      · simp [hv, hfield]
    | none =>
      have hfield : r.demand.MetBy o ↔ r.optional = true := by
        rw [FieldRule.metBy_demand_iff, hget]
      rw [filter_key_ne_eq_self hget hsub]
      by_cases hr : r.optional = true
      · simp [hr, hfield, ih hsub]
      · simp [hr, hfield]

theorem claimFields_eq_ok_iff :
    rules.claimFields o = .ok left ↔
      rules.boundCost ≤ o.length ∧ (∀ r ∈ rules.fields, r.demand.MetBy o) ∧
        rules.unnamed o = left := by
  unfold claimFields
  by_cases h : o.length < rules.boundCost
  · simp [h]
  · rw [if_neg h, claimEach_eq_ok_iff (List.Subset.refl o)]
    exact ⟨fun ⟨hmet, hleft⟩ => ⟨by omega, hmet, hleft⟩, fun ⟨_, hmet, hleft⟩ => ⟨hmet, hleft⟩⟩

end ObjectRules

/-! ## Slots and claimants -/

/-- A slot before it is known which fields there are: it asks something of a value instead. -/
structure Post (α : Type) where
  owner : Nat
  required : Bool
  unbounded : Bool
  value : α

namespace Post

variable {α β : Type}

def map (f : α → β) (p : Post α) : Post β := { p with value := f p.value }

/-- The slot for the given fields. -/
def slot (fields : Object) (p : Post (Value → Bool)) : Slot fields.length :=
  ⟨p.owner, p.required, p.unbounded, ObjectRules.column fields p.value⟩

def claimant (p : Post (Value → Bool)) : Claimant :=
  ⟨(p.value ·.2 = true), p.required, p.unbounded⟩

/-- What a wildcard claims. The group it is in decides what it asks of a value. -/
def ofWildcard (owner : Nat) (value : α) (r : WildcardRule α) : Post α :=
  ⟨owner, !r.optional, false, value⟩

/-- What a catch-all claims: one field if it is required, and whatever else there is. -/
def ofCatchAll (owner : Nat) (r : WildcardRule α) : List (Post α) :=
  (if r.optional then [] else [⟨owner, true, false, r.value⟩]) ++ [⟨owner, false, true, r.value⟩]

end Post

namespace ObjectRules

variable {α β : Type}

/-- The posts of the wildcards, group by group, and of the catch-all. -/
def posts (rules : ObjectRules α) : List (Post α) :=
  (rules.groups.zipIdx.flatMap fun g => g.1.members.map (.ofWildcard g.2 g.1.value)) ++
    rules.catchAll.elim [] (Post.ofCatchAll rules.groups.length)

theorem slots_eq_map_posts (rules : ObjectRules (Value → Bool)) (pending : Object) :
    rules.slots pending = rules.posts.map (Post.slot pending) := by
  simp only [slots, posts, List.map_append, List.map_flatMap, List.map_map]
  congr 1
  cases h : rules.catchAll with
  | none => rfl
  | some r => cases hr : r.optional <;> simp [Post.ofCatchAll, Post.slot, hr]

theorem get_column (fields : Object) (test : Value → Bool) (i : Fin fields.length) :
    (column fields test).get i = test (fields.get i).2 :=
  List.getElem_map _

theorem length_posts (rules : ObjectRules (Value → Bool)) :
    rules.posts.length = rules.slotCount := by
  rw [← length_slots rules [], slots_eq_map_posts, List.length_map]

theorem slot_board (rules : ObjectRules (Value → Bool)) (pending : Object)
    (i : Fin rules.posts.length) :
    (rules.board pending).slot.get (i.cast rules.length_posts) =
      (rules.posts.get i).slot pending := by
  simp only [board, slots_eq_map_posts]
  exact List.getElem_map _

theorem get_slot_board (rules : ObjectRules (Value → Bool)) (pending : Object)
    (slot : Fin rules.slotCount) :
    (rules.board pending).slot.get slot =
      (rules.posts.get (slot.cast rules.length_posts.symm)).slot pending := by
  simpa using rules.slot_board pending (slot.cast rules.length_posts.symm)

/-- A slot accepts a field when its post accepts the value. -/
theorem fits_board (rules : ObjectRules (Value → Bool)) (pending : Object)
    (pair : Fin pending.length) (slot : Fin rules.slotCount) :
    (rules.board pending).fits pair slot =
      (rules.posts.get (slot.cast rules.length_posts.symm)).value (pending.get pair).2 := by
  rw [Board.fits_eq, get_slot_board, Post.slot, get_column]

theorem proper_board (rules : ObjectRules (Value → Bool)) (pending : Object) :
    (rules.board pending).Proper := by
  have hposts : ∀ p ∈ rules.posts, p.required = true → p.unbounded = false := by
    simp only [posts, List.mem_append, List.mem_flatMap, List.mem_map]
    rintro p (⟨g, -, r, -, rfl⟩ | hp) hrequired
    · rfl
    · cases h : rules.catchAll <;> grind [Post.ofCatchAll]
  intro slot hrequired
  rw [Board.roomy]
  rw [get_slot_board] at hrequired ⊢
  exact hposts _ (List.getElem_mem _) hrequired

/-- The members of a group as claimants of one field each. -/
def groupClaimants (g : WildcardGroup (Value → Bool)) : List Claimant :=
  g.members.map fun r => ⟨(g.value ·.2 = true), !r.optional, false⟩

/-- The wildcards and the catch-all as claimants. -/
def claimants (rules : ObjectRules (Value → Bool)) : List Claimant :=
  rules.groups.flatMap groupClaimants ++
    rules.catchAll.toList.map fun r => ⟨(r.value ·.2 = true), !r.optional, true⟩

/-- The wildcards claim as their posts do. -/
theorem map_claimant_groups (rules : ObjectRules (Value → Bool)) :
    (rules.groups.zipIdx.flatMap fun g => g.1.members.map (.ofWildcard g.2 g.1.value)).map
      Post.claimant = rules.groups.flatMap groupClaimants := by
  rw [List.map_flatMap]
  conv_rhs => rw [← List.zipIdx_map_fst 0 rules.groups, List.flatMap_map]
  simp [groupClaimants, Post.claimant, Post.ofWildcard, Function.comp_def]

/-- To share fields out, a required catch-all may be taken as two. -/
theorem shareable_posts_iff {rules : ObjectRules (Value → Bool)} {fields : Object} :
    Shareable (rules.posts.map Post.claimant) fields ↔ Shareable rules.claimants fields := by
  rw [posts, claimants, List.map_append, map_claimant_groups]
  cases h : rules.catchAll with
  | none => simp
  | some r =>
    cases hr : r.optional
    · simpa [Post.ofCatchAll, Post.claimant, hr] using shareable_split_iff.symm
    · simp [Post.ofCatchAll, Post.claimant, hr]

/-- A complete placement of fields in the slots of posts shares them out among the posts. -/
theorem exists_complete_iff {posts : List (Post (Value → Bool))} {fields : Object} {slots : Nat}
    {b : Board fields.length slots} (hlength : posts.length = slots)
    (hslot : ∀ i : Fin posts.length, b.slot.get (i.cast hlength) = (posts.get i).slot fields) :
    (∃ f, b.Complete f) ↔ Shareable (posts.map Post.claimant) fields := by
  subst hlength
  simp only [Fin.cast_eq_self] at hslot
  have hfits : ∀ pair slot, b.fits pair slot = (posts.get slot).value (fields.get pair).2 := by
    intro pair slot
    rw [Board.fits_eq, hslot, Post.slot, get_column]
  have hroomy : ∀ slot, b.roomy slot = (posts.get slot).unbounded := fun slot => by
    rw [Board.roomy, hslot, Post.slot]
  constructor
  · rintro ⟨f, hf⟩
    refine ⟨fun i => (f i).cast (by simp), ?_, ?_, ?_⟩
    · intro i
      simpa [Post.claimant, hfits] using hf.fits i
    · intro i j hij
      have hbounded := hf.bounded i j (by simpa [Fin.ext_iff] using hij)
      rw [hroomy] at hbounded
      cases h : (posts.get (f i)).unbounded
      · exact .inl (hbounded h)
      · exact .inr (by simpa [Post.claimant] using h)
    · intro c hc
      obtain ⟨i, hi⟩ := hf.required (c.cast (by simp))
        (by rw [hslot]; simpa [Post.claimant, Post.slot] using hc)
      exact ⟨i, by simp [hi]⟩
  · rintro ⟨owner, hshares⟩
    refine ⟨fun i => (owner i).cast (by simp), ?_, ?_, ?_⟩
    · intro i
      simpa [Post.claimant, hfits] using hshares.accepts i
    · intro i j hij hslot
      refine (hshares.single i j (by simpa [Fin.ext_iff] using hij)).resolve_right ?_
      intro h
      rw [hroomy] at hslot
      simp [Post.claimant] at h
      simp [h] at hslot
    · intro c hc
      obtain ⟨i, hi⟩ := hshares.served (c.cast (by simp))
        (by rw [hslot] at hc; simpa [Post.claimant, Post.slot] using hc)
      exact ⟨i, by simp [hi]⟩

theorem exists_complete_board_iff {rules : ObjectRules (Value → Bool)} {pending : Object} :
    (∃ f, (rules.board pending).Complete f) ↔ Shareable rules.claimants pending := by
  rw [exists_complete_iff rules.length_posts (rules.slot_board pending), shareable_posts_iff]

/-! ## Outcomes -/

theorem freeCost_eq_countP (rules : ObjectRules (Value → Bool)) :
    rules.freeCost = rules.claimants.countP (·.required) := by
  rw [freeCost, claimants, List.countP_append, List.countP_flatMap, List.countP_flatMap]
  congr 1
  · simp [groupClaimants, Function.comp_def]
  · cases h : rules.catchAll with
    | none => rfl
    | some r => cases hr : r.optional <;> simp [WildcardRule.cost, costOf, hr]

theorem length_placed_add_unplaced {pairs slots : Nat} (p : Placement pairs slots) :
    p.placed.length + p.unplaced.length = pairs := by
  have h := List.length_eq_length_filter_add (l := List.finRange pairs)
    fun pair => p.slotOf[pair].isSome
  simpa [Placement.placed, Placement.unplaced] using h.symm

variable {rules : ObjectRules (Value → Bool)} {o pending : Object}

/-- The other fields can be claimed without rest when they can be shared out. -/
theorem claimRest_unplaced_nil_iff :
    (∃ p, rules.claimRest pending = .ok p ∧ p.unplaced = []) ↔
      Shareable rules.claimants pending := by
  constructor
  · rintro ⟨p, hp, hnil⟩
    rw [← exists_complete_board_iff, ← Board.settle_unplaced_nil_iff (rules.proper_board pending)]
    refine ⟨p, ?_, hnil⟩
    unfold claimRest at hp
    grind
  · intro hshare
    have hcost : ¬ pending.length < rules.freeCost := by
      have hle := hshare.countP_required_le
      rw [← freeCost_eq_countP] at hle
      omega
    rw [← exists_complete_board_iff,
      ← Board.settle_unplaced_nil_iff (rules.proper_board pending)] at hshare
    obtain ⟨p, hp, hnil⟩ := hshare
    exact ⟨p, by simp [claimRest, hcost, hp], hnil⟩

theorem reconcile_eq_error_of_claimFields {d : Discrepancy} (h : rules.claimFields o = .error d) :
    rules.reconcile o = .error d := by
  rw [reconcile, h]
  rfl

theorem reconcile_eq_error_of_claimRest {d : Discrepancy}
    (hfields : rules.claimFields o = .ok pending) (h : rules.claimRest pending = .error d) :
    rules.reconcile o = .error d := by
  rw [reconcile, hfields]
  change rules.claimRest pending >>= _ = _
  rw [h]
  rfl

theorem reconcile_eq_of_claimRest {p : Placement pending.length rules.slotCount}
    (hfields : rules.claimFields o = .ok pending) (h : rules.claimRest pending = .ok p) :
    rules.reconcile o =
      if p.unplaced.length = 0 then .ok ⟨o.length - pending.length, p.placed.length⟩
      else .error (.unclaimed (p.unplaced.map fun pair => (pending.get pair).1)) := by
  rw [reconcile, hfields]
  change rules.claimRest pending >>= _ = _
  rw [h]
  change ite _ _ _ = _
  simp

/-- An object can be reconciled with its rules exactly when they need not more named fields than
the object has fields, the named fields pass, and the others can be shared out. All fields are
claimed then. -/
theorem reconcile_eq_ok_iff {claimed : Claimed} :
    rules.reconcile o = .ok claimed ↔
      rules.boundCost ≤ o.length ∧ (∀ r ∈ rules.fields, r.demand.MetBy o) ∧
        Shareable rules.claimants (rules.unnamed o) ∧
        claimed = ⟨o.length - (rules.unnamed o).length, (rules.unnamed o).length⟩ := by
  rw [← claimRest_unplaced_nil_iff]
  simp only [reconcile, bind_eq_ok, claimFields_eq_ok_iff]
  constructor
  · rintro ⟨pending, ⟨hcost, hmet, rfl⟩, p, hp, h⟩
    have hlength := length_placed_add_unplaced p
    split at h
    next hleft =>
      simp only [List.isEmpty_iff, List.map_eq_nil_iff] at hleft
      cases h
      exact ⟨hcost, hmet, ⟨p, hp, hleft⟩, by simpa [hleft] using hlength⟩
    next => cases h
  · rintro ⟨hcost, hmet, ⟨p, hp, hleft⟩, rfl⟩
    have hlength := length_placed_add_unplaced p
    refine ⟨_, ⟨hcost, hmet, rfl⟩, p, hp, ?_⟩
    simpa [hleft] using hlength

theorem requiredName?_demand {r : FieldRule (Value → Bool)} (h : 0 < r.cost) :
    r.demand.key.requiredName? = some r.name := by
  cases hr : r.optional with
  | false => simp [FieldRule.demand, KeyPattern.requiredName?, hr]
  | true => simp [FieldRule.cost, costOf, hr] at h

/-- When the named fields pass and the others are shared out, the keys suit the rules. -/
theorem keysAgree_of_shareable (hmet : ∀ r ∈ rules.fields, r.demand.MetBy o)
    (hshare : Shareable rules.claimants (rules.unnamed o)) : rules.keysAgree o.keys = true := by
  rw [keysAgree, Bool.and_eq_true, Bool.or_eq_true, isSubset_beq_iff, isSubset_beq_iff]
  refine ⟨fun key hkey => ?_, or_iff_not_imp_left.mpr fun hwild key hkey => ?_⟩
  · obtain ⟨r, hr, rfl⟩ := List.mem_map.mp hkey
    obtain ⟨hmem, hcost⟩ := List.mem_filter.mp hr
    exact mem_keys_of_requiredName? (hmet r hmem) (requiredName?_demand (by simpa using hcost))
  · have hnone : rules.claimants = [] := by
      simp only [hasWildcards, Bool.or_eq_true, Bool.not_eq_true', not_or, Bool.not_eq_false,
        List.isEmpty_iff] at hwild
      simp [claimants, hwild.1, Option.not_isSome_iff_eq_none.mp hwild.2]
    rw [hnone] at hshare
    obtain ⟨field, hfield, rfl⟩ := List.mem_map.mp hkey
    by_contra hkey
    have hmem : field ∈ rules.unnamed o := List.mem_filter.mpr ⟨hfield, by simpa using hkey⟩
    simp [hshare.eq_nil] at hmem

/-- When the named fields pass, the others are shared out and some rule must claim a field, there
is a field. -/
theorem ne_nil_of_shareable (hmet : ∀ r ∈ rules.fields, r.demand.MetBy o)
    (hshare : Shareable rules.claimants (rules.unnamed o))
    (hrequired : rules.tests.any Test.isRequired = true) : o ≠ [] := by
  rintro rfl
  have hcost : rules.freeCost = 0 := by
    rw [freeCost_eq_countP]
    exact Nat.le_zero.1 hshare.countP_required_le
  simp only [freeCost, Nat.add_eq_zero_iff, List.countP_eq_zero, List.mem_flatMap] at hcost
  obtain ⟨t, ht, htcost⟩ := List.any_eq_true.1 hrequired
  rcases mem_tests_iff.mp ht with ⟨r, hr, rfl⟩ | ⟨g, hg, r, hr, rfl⟩ | ⟨r, hr, rfl⟩
  · have hmem := mem_keys_of_requiredName? (hmet r hr)
      (requiredName?_demand (of_decide_eq_true htcost))
    simp [Object.keys] at hmem
  · have hoptional := hcost.1 r ⟨g, hg, hr⟩
    simp_all [Test.isRequired, WildcardRule.toTest, WildcardRule.cost, costOf]
  · simp_all [Test.isRequired, WildcardRule.toTest]

/-- The verdict on an object: its rules need not more named fields than it has fields, the named
fields pass, and the others can be shared out. -/
theorem acceptsObject_iff :
    rules.acceptsObject o = true ↔
      rules.boundCost ≤ o.length ∧ (∀ r ∈ rules.fields, r.demand.MetBy o) ∧
        Shareable rules.claimants (rules.unnamed o) := by
  unfold acceptsObject
  constructor
  · intro h
    split at h
    next => cases h
    next claimed hclaimed =>
      obtain ⟨hcost, hmet, hshare, -⟩ := reconcile_eq_ok_iff.mp hclaimed
      exact ⟨hcost, hmet, hshare⟩
  · rintro ⟨hcost, hmet, hshare⟩
    rw [reconcile_eq_ok_iff.mpr ⟨hcost, hmet, hshare, rfl⟩]
    simp only [keysAgree_of_shareable hmet hshare, Bool.true_and]
    by_cases hrequired : rules.tests.any Test.isRequired = true
    · have hne := ne_nil_of_shareable hmet hshare hrequired
      simpa [Value.isNonEmpty, Value.isEmpty] using .inr hne
    · simp [hrequired]

/-- An object is accepted exactly when it can be reconciled: the tests of its keys and of its
number of fields decide nothing more. -/
theorem acceptsObject_eq_isOk : rules.acceptsObject o = (rules.reconcile o).isOk := by
  rw [Bool.eq_iff_iff, acceptsObject_iff, isOk_iff]
  simp only [reconcile_eq_ok_iff]
  exact ⟨fun ⟨hcost, hmet, hshare⟩ => ⟨_, hcost, hmet, hshare, rfl⟩,
    fun ⟨_, hcost, hmet, hshare, _⟩ => ⟨hcost, hmet, hshare⟩⟩

end ObjectRules

end ShapeMatch
