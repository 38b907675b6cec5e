import ShapeMatch.Proofs.Object.Leftover
import ShapeMatch.Proofs.Schema.Identity

/-!
# Wildcards that must claim a field

Each wildcard that is not optional must claim a field, and so must a catch-all that is not. They
all can when different fields can be chosen for them. The fields that rules on names leave are
refused exactly when this is impossible, and the rule that is reported is the first one for which
no choice of fields serves it along with those before it.

## Main definitions

* `Requirement`: a wildcard or a catch-all that must claim a field.
* `Choosable`: different fields can be chosen for requirements.
* `FirstUnserved`: the first requirement that cannot be served along with those before it.

## Main statements

* `ObjectRules.exists_claimRest_unplaced_nil_iff`: all fields are claimed when the requirements and
  the fields can be served, each on their own.
* `Schema.claimRest_fails_iff_not_choosable`: when the other fields are refused, and for which rule.
-/

namespace ShapeMatch

/-- A wildcard or a catch-all that must claim a field. The owner of its slot is the position of its
group, or for a catch-all the position after the last group. -/
structure Requirement (α : Type) where
  owner : Nat
  rule : WildcardRule α

/-- The slot of a requirement on the fields of `o`. -/
def Requirement.slot (o pending : Object) (need : Requirement Matcher) : Slot pending.length :=
  ⟨need.owner, true, false, ObjectRules.column pending (need.rule.value.judge (some o))⟩

/-- Different fields can be chosen for requirements, one for each, that their rules accept within
`o`. -/
def Choosable (o fields : Object) (needs : List (Requirement Matcher)) : Prop :=
  ∃ pick : Fin needs.length → Fin fields.length, Function.Injective pick ∧
    ∀ i, (needs.get i).rule.value.matchesIn o (fields.get (pick i)).2 = true

/-- Requirements are split where the first of them stands that cannot be served along with those
before it. -/
structure FirstUnserved (o fields : Object) (needs before : List (Requirement Matcher))
    (need : Requirement Matcher) : Prop where
  split : ∃ after, needs = before ++ need :: after
  served : Choosable o fields before
  unserved : ¬ Choosable o fields (before ++ [need])

variable {rules : ObjectRules Matcher} {o pending : Object}

namespace ObjectRules

/-- What must claim a field: each wildcard that is not optional, group by group, and then a
catch-all that is not. -/
def requirements {α : Type} (rules : ObjectRules α) : List (Requirement α) :=
  (rules.groups.zipIdx.flatMap fun g =>
    (g.1.members.filter (!·.optional)).map (Requirement.mk g.2)) ++
  (rules.catchAll.toList.filter (!·.optional)).map (Requirement.mk rules.groups.length)

/-- The required slots are those of the requirements, if each wildcard asks what its group asks. -/
theorem map_slot_requiredSlots_board {rules : ObjectRules Matcher} {o : Object}
    (hgroups : ∀ g ∈ rules.groups, ∀ r ∈ g.members,
      r.value.judge (some o) = g.value.judge (some o)) (pending : Object) :
    let b := (rules.within o).board pending
    b.requiredSlots.map b.slot.get = rules.requirements.map (Requirement.slot o pending) := by
  intro b
  have hboard : b.slot.toList = (rules.within o).slots pending := by simp [b, board]
  rw [Board.map_slot_requiredSlots, hboard, slots, requirements, List.filter_append,
    List.map_append]
  congr 1
  · simp only [within, ObjectRules.map, List.zipIdx_map, List.flatMap_map, List.filter_flatMap,
      List.map_flatMap]
    apply List.flatMap_congr
    rintro ⟨g, owner⟩ hg
    have hmem : g ∈ rules.groups := by grind
    change ((g.members.map (·.map fun m => m.judge (some o))).map fun r =>
        (⟨owner, !r.optional, false, column pending (g.value.judge (some o))⟩ : Slot _)).filter
          (·.required) =
      ((g.members.filter (!·.optional)).map (Requirement.mk owner)).map (Requirement.slot o pending)
    rw [List.map_map, List.filter_map, List.map_map]
    apply List.map_congr_left
    intro r hr
    obtain ⟨hr, hrequired⟩ := List.mem_filter.mp hr
    have hrule : r.optional = false := by simpa [WildcardRule.map] using hrequired
    simp [Requirement.slot, WildcardRule.map, hrule, hgroups g hmem r hr]
  · cases h : rules.catchAll with
    | none => simp [within, ObjectRules.map, h]
    | some r =>
      cases hr : r.optional <;>
        simp [within, ObjectRules.map, h, hr, Requirement.slot, WildcardRule.map]

/-- Slots of requirements can be filled when different fields can be chosen for these. -/
theorem fillable_iff_choosable {slots : Nat} {b : Board pending.length slots}
    {l : List (Fin slots)} {needs : List (Requirement Matcher)} (hl : l.Nodup)
    (h : l.map b.slot.get = needs.map (Requirement.slot o pending)) :
    b.Fillable l ↔ Choosable o pending needs := by
  have hlength : l.length = needs.length := by simpa using congrArg List.length h
  have hfits : ∀ (i : Fin l.length) pair, b.fits pair (l.get i) =
      (needs.get (i.cast hlength)).rule.value.matchesIn o (pending.get pair).2 := by
    intro i pair
    have hslot : b.slot.get (l.get i) = (needs.get (i.cast hlength)).slot o pending := by
      simpa using List.getElem_of_eq h (by simp : i.val < (l.map b.slot.get).length)
    rw [Board.fits_eq, hslot, Requirement.slot, get_column]
    rfl
  rw [Board.fillable_iff_injective hl]
  constructor
  · rintro ⟨pick, hinj, hpick⟩
    refine ⟨pick ∘ Fin.cast hlength.symm, hinj.comp (Fin.cast_injective _), ?_⟩
    intro i
    simpa using (hfits _ _).symm.trans (hpick (i.cast hlength.symm))
  · rintro ⟨pick, hinj, hpick⟩
    refine ⟨pick ∘ Fin.cast hlength, hinj.comp (Fin.cast_injective _), ?_⟩
    intro i
    exact (hfits _ _).trans (hpick (i.cast hlength))

/-! ## Outcomes -/

/-- All fields that rules on names leave are claimed exactly when, first, the required slots can be
filled with different fields and, second, all these fields can be put into slots that accept them,
at most one into a bounded slot. The two need not go together. What the rules test is arbitrary, and
so is which slots accept which fields. -/
theorem exists_claimRest_unplaced_nil_iff (rules : ObjectRules (Value → Bool)) (pending : Object) :
    let b := rules.board pending
    (∃ p, rules.claimRest pending = .ok p ∧ p.unplaced = []) ↔
      (∃ pick : Fin b.requiredSlots.length → Fin pending.length, Function.Injective pick ∧
        ∀ i, b.fits (pick i) (b.requiredSlots.get i) = true) ∧
      ∃ place : Fin pending.length → Fin rules.slotCount,
        (∀ pair, b.fits pair (place pair) = true) ∧
        ∀ pair pair', place pair = place pair' → b.roomy (place pair) = false → pair = pair' := by
  intro b
  simp only [claimRest_eq_ok_iff]
  rw [Board.settle_unplaced_nil_iff_fillable (rules.proper_board pending),
    Board.fillable_iff_injective b.nodup_requiredSlots]

/-- A slot that stays empty is reported as a rule that claims too few fields. -/
theorem exists_shortage_eq (rules : ObjectRules (Value → Bool)) (owner filled : Nat) :
    ∃ rule required claimed, rules.shortage owner filled = .unsatisfied rule required claimed := by
  unfold shortage
  split
  next => exact ⟨_, _, _, rfl⟩
  next => exact ⟨_, _, _, rfl⟩

end ObjectRules

namespace Schema

variable {interp : Interpretation} {entries : List (String × Schema)}

/-- The required slots of compiled rules are those of their requirements. -/
theorem map_slot_requiredSlots_compileRules (hrules : compileRules interp entries = .ok rules)
    (o pending : Object) :
    let b := (rules.within o).board pending
    b.requiredSlots.map b.slot.get = rules.requirements.map (Requirement.slot o pending) :=
  ObjectRules.map_slot_requiredSlots_board
    (fun _ hg _ hr => judge_eq_of_mem_members hrules hg hr o) pending

/-- The other fields can be claimed when different ones can be chosen for the requirements. -/
theorem exists_claimRest_ok_iff (hrules : compileRules interp entries = .ok rules) :
    (∃ p, (rules.within o).claimRest pending = .ok p) ↔ Choosable o pending rules.requirements := by
  simp only [ObjectRules.claimRest_eq_ok_iff]
  rw [Board.exists_settle_ok_iff_fillable (ObjectRules.proper_board _ _)]
  exact ObjectRules.fillable_iff_choosable (Board.nodup_requiredSlots _)
    (map_slot_requiredSlots_compileRules hrules o pending)

/-- Settling stops at the first requirement that cannot be served along with those before it, which
are all served by then. -/
theorem exists_firstUnserved_of_settle (hrules : compileRules interp entries = .ok rules)
    {s : Board.Shortage pending.length (rules.within o).slotCount}
    (hs : ((rules.within o).board pending).settle = .error s) :
    let b := (rules.within o).board pending
    ∃ before need, FirstUnserved o pending rules.requirements before need ∧
      b.requiredSlots[before.length]? = some s.slot ∧ (b.slot.get s.slot).owner = need.owner ∧
      b.filled s.placement need.owner = before.countP (·.owner == need.owner) := by
  intro b
  obtain ⟨filled, rest, hsplit, hfillable, hnot, hheld⟩ :=
    Board.settle_error (ObjectRules.proper_board _ _) hs
  have hnodup : (filled ++ s.slot :: rest).Nodup := hsplit ▸ b.nodup_requiredSlots
  have hslots := map_slot_requiredSlots_compileRules hrules o pending
  simp only [hsplit, List.map_append, List.map_cons] at hslots
  -- the requirements are split where the required slots are
  obtain ⟨before, others, hneeds, hbefore, hothers⟩ := List.map_eq_append_iff.mp hslots.symm
  obtain ⟨need, after, rfl, hneed, -⟩ := List.map_eq_cons_iff.mp hothers
  have hlength : before.length = filled.length := by simpa using congrArg List.length hbefore
  have howner : need.owner = (b.slot.get s.slot).owner := congrArg Slot.owner hneed
  refine ⟨before, need, ⟨⟨after, hneeds⟩, ?_, ?_⟩, ?_, howner.symm, ?_⟩
  · exact (ObjectRules.fillable_iff_choosable hnodup.of_append_left hbefore.symm).mp hfillable
  · refine mt (ObjectRules.fillable_iff_choosable ?_ ?_).mpr hnot
    · exact hnodup.sublist (by simp)
    · simp [hbefore, hneed]
  · rw [hsplit, hlength]
    simp
  · rw [Board.filled_eq_countP hnodup.of_append_left hheld]
    have hcount := congrArg (List.countP (·.owner == need.owner)) hbefore
    rw [List.countP_map, List.countP_map] at hcount
    exact hcount.symm

/-- When the fields that rules on names leave are visited in another order, the same required slot
stays empty, and the same discrepancy is reported. -/
theorem claimRest_error_of_perm_fields (hrules : compileRules interp entries = .ok rules)
    (hnodup : o.keys.Nodup) {o' : Object} (hperm : o.Perm o')
    (hfields : (rules.within o).claimFields o = .ok pending)
    {s : Board.Shortage pending.length (rules.within o).slotCount} {i : Nat}
    (hs : ((rules.within o).board pending).settle = .error s)
    (hi : ((rules.within o).board pending).requiredSlots[i]? = some s.slot) {d : Discrepancy}
    (hd : (rules.within o).claimRest pending = .error d) :
    ∃ pending' s', (rules.within o').claimFields o' = .ok pending' ∧
      ((rules.within o').board pending').settle = .error s' ∧
      ((rules.within o').board pending').requiredSlots[i]? = some s'.slot ∧
      (rules.within o').claimRest pending' = .error d := by
  have hget : ∀ name, o'.get? name = o.get? name := Object.get?_eq_of_perm hnodup hperm
  have hfields' : (rules.within o).claimFields o' = .ok ((rules.within o).unnamed o') :=
    ObjectRules.claimFields_eq_ok_of_get? hperm.length_eq.symm (fun name _ => hget name) hfields
  obtain ⟨-, -, rfl⟩ := ObjectRules.claimFields_eq_ok_iff.mp hfields
  have hvalues : (((rules.within o).unnamed o).map Prod.snd).Perm
      (((rules.within o).unnamed o').map Prod.snd) := (hperm.filter _).map Prod.snd
  rw [within_congr hrules fun name _ => hget name]
  obtain ⟨e, he⟩ := ObjectRules.exists_renumbers_board hvalues
  rcases he.settle_cases (ObjectRules.proper_board _ _) with
    ⟨q, -, hq, -⟩ | ⟨t, t', ht, ht', hslot, -⟩
  · cases hs.symm.trans hq
  obtain rfl : s = t := Except.error.inj (hs.symm.trans ht)
  rcases (rules.within o).claimRest_cases hvalues with ⟨p, -, hp, -⟩ | ⟨d', hd', hd''⟩
  · cases hd.symm.trans hp
  obtain rfl : d = d' := Except.error.inj (hd.symm.trans hd')
  exact ⟨_, t', hfields', ht', by rw [he.requiredSlots_eq, hi, hslot], hd''⟩

/-- An error on the other fields says that there are too few of them, or comes from the board of
their slots. -/
theorem exists_settle_error_of_claimRest {rules : ObjectRules (Value → Bool)} {d : Discrepancy}
    (h : rules.claimRest pending = .error d) :
    d = .notEnoughPairs .free rules.freeCost pending.length ∨
      ∃ s owner, (rules.board pending).settle = .error s ∧
        ((rules.board pending).slot.get s.slot).owner = owner ∧
        d = rules.shortage owner ((rules.board pending).filled s.placement owner) := by
  by_cases hcost : pending.length < rules.freeCost
  · rw [ObjectRules.claimRest, if_pos hcost] at h
    exact .inl (Except.error.inj h).symm
  · cases hs : (rules.board pending).settle with
    | ok q => cases (ObjectRules.claimRest_eq_ok_iff.mpr hs).symm.trans h
    | error s =>
      rw [ObjectRules.claimRest_eq_error_of_settle hcost hs rfl] at h
      exact .inr ⟨s, _, rfl, rfl, (Except.error.inj h).symm⟩

/-- If the named fields pass, the other fields are refused exactly when different ones cannot be
chosen for all requirements. There are too few of them, or a requirement is reported: the first
one that cannot be served along with those before it, whatever the order of the fields. The
discrepancy counts how many earlier requirements have the same owner. -/
theorem claimRest_fails_iff_not_choosable (hrules : compileRules interp entries = .ok rules)
    (ho : o.Sorted) (hfields : (rules.within o).claimFields o = .ok pending) :
    ((∃ d, (rules.within o).claimRest pending = .error d) ↔
        ¬ Choosable o pending rules.requirements) ∧
      (∀ d, (rules.within o).claimRest pending = .error d →
        (∃ required available, d = .notEnoughPairs .free required available) ∨
          ∃ rule required claimed, d = .unsatisfied rule required claimed) ∧
      ∀ rule required claimed,
        (rules.within o).claimRest pending = .error (.unsatisfied rule required claimed) →
        ∃ before need, FirstUnserved o pending rules.requirements before need ∧
          (rules.within o).shortage need.owner (before.countP (·.owner == need.owner)) =
            .unsatisfied rule required claimed ∧
          ∀ o', o.Perm o' → ∃ pending' s,
            (rules.within o').claimFields o' = .ok pending' ∧
            ((rules.within o').board pending').settle = .error s ∧
            ((rules.within o').board pending').requiredSlots[before.length]? = some s.slot ∧
            (rules.within o').claimRest pending' = .error (.unsatisfied rule required claimed) := by
  refine ⟨?_, ?_, ?_⟩
  · rw [← exists_claimRest_ok_iff hrules]
    cases (rules.within o).claimRest pending <;> simp
  · intro d hd
    rcases exists_settle_error_of_claimRest hd with rfl | ⟨s, owner, -, -, rfl⟩
    · exact .inl ⟨_, _, rfl⟩
    · exact .inr ((rules.within o).exists_shortage_eq _ _)
  · intro rule required claimed h
    rcases exists_settle_error_of_claimRest h with hcost | ⟨s, owner, hs, rfl, hshortage⟩
    · cases hcost
    obtain ⟨before, need, hfirst, hindex, howner, hfilled⟩ :=
      exists_firstUnserved_of_settle hrules hs
    rw [howner, hfilled] at hshortage
    refine ⟨before, need, hfirst, hshortage.symm, ?_⟩
    intro o' hperm
    exact claimRest_error_of_perm_fields hrules ho.nodup_keys hperm hfields hs hindex h

/-- Of three fields that are left, one equals 1. A wildcard that accepts anything gives it up to the
first of two wildcards that ask for 1, and the second is reported with the group of both. -/
theorem claimRest_fails_of_two_for_one :
    ∃ rules pending,
      compileRules (fun _ _ => true) [("a", .literal .null), ("*", .literal (.str "*")),
        ("*x*", .literal (.num (.int 1))), ("*y*", .literal (.num (.int 1)))] = .ok rules ∧
      let o : Object :=
        [("a", .null), ("b", .num (.int 1)), ("c", .num (.int 2)), ("d", .num (.int 3))]
      (rules.within o).claimFields o = .ok pending ∧
        (rules.within o).claimRest pending = .error (.unsatisfied "*x*, *y*" 2 1) ∧
        ¬ Choosable o pending rules.requirements ∧
        (∃ before need, FirstUnserved o pending rules.requirements before need) ∧
        ∃ pending', (rules.within o.reverse).claimFields o.reverse = .ok pending' ∧
          (rules.within o.reverse).claimRest pending' = .error (.unsatisfied "*x*, *y*" 2 1) := by
  let o : Object := [("a", .null), ("b", .num (.int 1)), ("c", .num (.int 2)), ("d", .num (.int 3))]
  have hrun : ((compileRules (fun _ _ => true) [("a", .literal .null), ("*", .literal (.str "*")),
      ("*x*", .literal (.num (.int 1))),
      ("*y*", .literal (.num (.int 1)))]).toOption.any fun rules =>
        ((rules.within o).claimFields o).toOption.any fun pending =>
          errorOf? ((rules.within o).claimRest pending) == some (.unsatisfied "*x*, *y*" 2 1)) =
      true := by
    decide +kernel
  obtain ⟨rules, hrules, hrun⟩ := (Option.any_eq_true _ _).1 hrun
  obtain ⟨pending, hfields, hrun⟩ := (Option.any_eq_true _ _).1 hrun
  rw [toOption_eq_some_iff] at hrules hfields
  have herror := errorOf?_eq_some_iff.mp (by simpa using hrun)
  obtain ⟨hfails, -, hunsatisfied⟩ :=
    claimRest_fails_iff_not_choosable hrules (by decide +kernel : o.Sorted) hfields
  obtain ⟨before, need, hfirst, -, horder⟩ := hunsatisfied _ _ _ herror
  obtain ⟨pending', -, hfields', -, -, herror'⟩ := horder o.reverse (List.reverse_perm o).symm
  exact ⟨rules, pending, hrules, hfields, herror, hfails.mp ⟨_, herror⟩, ⟨before, need, hfirst⟩,
    pending', hfields', herror'⟩

end Schema

end ShapeMatch
