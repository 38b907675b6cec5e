import ShapeMatch.Proofs.Assignment.Choice
import ShapeMatch.Proofs.Assignment.Leftover
import ShapeMatch.Proofs.Object.Renaming

/-!
# How few fields are left unclaimed

When the named fields pass and every wildcard and catch-all that must claim a field can have one, an
object either is reconciled with its rules or leaves some fields unclaimed. How many these are is
the least number that any way of claiming the other fields leaves, and it depends neither on
the order of the entries nor on that of the fields.

## Main definitions

* `leftOver?`: how many fields an outcome leaves unclaimed.

## Main statements

* `ObjectRules.leftOver?_reconcile`: the number of unclaimed fields is the least one.
* `Schema.leftOver?_eq_least`: it does not depend on any order.
-/

namespace ShapeMatch

/-- How many fields are left unclaimed, if it comes to that: none when the object is reconciled. -/
def leftOver? : Except Discrepancy Claimed → Option Nat
  | .ok _ => some 0
  | .error (.unclaimed keys) => some keys.length
  | .error _ => none

theorem SameOutcome.leftOver?_eq {x y : Except Discrepancy Claimed} (h : SameOutcome x y) :
    leftOver? y = leftOver? x := by
  cases h with
  | ok => rfl
  | error h =>
    cases h with
    | refl => rfl
    | unclaimed hlength => simp [leftOver?, hlength]

/-- A claimant of any number of fields as one that must have one field, if it is required, and one
that may have any number. -/
def Claimant.parts (c : Claimant) : List Claimant :=
  if c.unbounded then
    (if c.required then [⟨c.accepts, true, false⟩] else []) ++ [⟨c.accepts, false, true⟩]
  else [c]

theorem countP_flatMap_parts (cs : List Claimant) :
    (cs.flatMap Claimant.parts).countP (·.required) = cs.countP (·.required) := by
  induction cs with
  | nil => rfl
  | cons c rest ih =>
    have hparts : c.parts.countP (·.required) = if c.required then 1 else 0 := by
      obtain ⟨accepts, required, unbounded⟩ := c
      cases required <;> cases unbounded <;> rfl
    rw [List.flatMap_cons, List.countP_append, ih, hparts, List.countP_cons, Nat.add_comm]

namespace ObjectRules

variable {rules rules' : ObjectRules (Value → Bool)} {o pending : Object}

/-- Posts are the parts of claimants. -/
theorem map_claimant_posts (rules : ObjectRules (Value → Bool)) :
    rules.posts.map Post.claimant = rules.claimants.flatMap Claimant.parts := by
  have hgroups : (rules.groups.flatMap groupClaimants).flatMap Claimant.parts =
      rules.groups.flatMap groupClaimants := by
    have hparts : ∀ c ∈ rules.groups.flatMap groupClaimants, c.parts = [c] := by
      simp only [List.mem_flatMap, groupClaimants, List.mem_map]
      rintro c ⟨g, -, r, -, rfl⟩
      rfl
    rw [List.flatMap_congr hparts, List.flatMap_singleton']
  rw [posts, claimants, List.map_append, map_claimant_groups, List.flatMap_append, hgroups]
  congr 1
  cases h : rules.catchAll with
  | none => rfl
  | some r => cases hr : r.optional <;> simp [Post.ofCatchAll, Post.claimant, Claimant.parts, hr]

/-- There are as many required slots as wildcards and catch-alls that must claim a field. -/
theorem length_requiredSlots_board (rules : ObjectRules (Value → Bool)) (pending : Object) :
    (rules.board pending).requiredSlots.length = rules.freeCost := by
  have hslots : (rules.board pending).slot.toList = rules.posts.map (Post.slot pending) := by
    simp [board, slots_eq_map_posts]
  calc (rules.board pending).requiredSlots.length
    _ = (rules.posts.map (Post.slot pending)).countP (·.required) := by
        rw [Board.length_requiredSlots, hslots]
    _ = (rules.posts.map Post.claimant).countP (·.required) := by
        rw [List.countP_map, List.countP_map]
        rfl
    _ = rules.claimants.countP (·.required) := by
        rw [map_claimant_posts, countP_flatMap_parts]
    _ = rules.freeCost := rules.freeCost_eq_countP.symm

/-- The other fields are claimed as the board of their slots settles. That there are enough of them
decides nothing more. -/
theorem claimRest_eq_ok_iff {p : Placement pending.length rules.slotCount} :
    rules.claimRest pending = .ok p ↔ (rules.board pending).settle = .ok p := by
  unfold claimRest
  by_cases hcost : pending.length < rules.freeCost
  · rw [if_pos hcost]
    refine iff_of_false (by simp) ?_
    intro hp
    have hfillable := (Board.exists_settle_ok_iff_fillable (rules.proper_board pending)).mp ⟨p, hp⟩
    have hle := hfillable.length_le (Board.nodup_requiredSlots _)
    rw [length_requiredSlots_board] at hle
    omega
  · rw [if_neg hcost]
    cases h : (rules.board pending).settle <;> simp [h]

/-- Rules with the same claimants have boards with the same slots. -/
theorem exists_rearranges_board (h : rules.claimants.Perm rules'.claimants) (pending : Object) :
    ∃ g, Board.Rearranges g (rules.board pending) (rules'.board pending) := by
  have hposts : (rules.posts.map Post.claimant).Perm (rules'.posts.map Post.claimant) := by
    rw [map_claimant_posts, map_claimant_posts]
    exact h.flatMap_right _
  obtain ⟨e, he⟩ := exists_equiv_of_perm_map hposts
  -- slots are counted without the posts, so that positions are cast both ways
  let g : Fin rules.slotCount ≃ Fin rules'.slotCount :=
    (finCongr rules.length_posts.symm).trans (e.trans (finCongr rules'.length_posts))
  have hpost : ∀ slot : Fin rules.slotCount,
      (rules'.posts.get ((g slot).cast rules'.length_posts.symm)).claimant =
        (rules.posts.get (slot.cast rules.length_posts.symm)).claimant := fun slot => by
    simpa [g] using he (slot.cast rules.length_posts.symm)
  refine ⟨g, ?_, ?_, ?_⟩
  · intro slot
    rw [get_slot_board, get_slot_board]
    exact congrArg Claimant.required (hpost slot)
  · intro slot
    rw [Board.roomy, Board.roomy, get_slot_board, get_slot_board]
    exact congrArg Claimant.unbounded (hpost slot)
  · intro pair slot
    rw [fits_board, fits_board, Bool.eq_iff_iff]
    exact iff_of_eq (congrFun (congrArg Claimant.accepts (hpost slot)) (pending.get pair))

/-- If the named fields pass and every required slot can be filled, the number of fields that are
left unclaimed is the least possible. -/
theorem leftOver?_reconcile (hfields : rules.claimFields o = .ok pending)
    (hserves : ∃ f, (rules.board pending).Serves f) :
    ∃ n, leftOver? (rules.reconcile o) = some n ∧ IsLeast (rules.board pending).leftovers n := by
  have hproper := rules.proper_board pending
  obtain ⟨q, hq⟩ := (Board.exists_settle_ok_iff hproper).mpr hserves
  have hrest : rules.claimRest pending = .ok q := claimRest_eq_ok_iff.mpr hq
  refine ⟨q.unplaced.length, ?_, Board.isLeast_unplaced hproper hq⟩
  rw [reconcile_eq_of_claimRest hfields hrest]
  split
  next hnil => rw [hnil, leftOver?]
  next => rw [leftOver?, List.length_map]

end ObjectRules

namespace Schema

variable {interp : Interpretation} {entries entries' : List (String × Schema)}
  {rules rules' : ObjectRules Matcher} {o o' pending : Object}

/-- Permuted entries leave the same fields to the wildcards and the catch-all, and rearrange their
slots. -/
theorem leftover_of_perm_entries (h : entries.Perm entries')
    (hrules : compileRules interp entries = .ok rules)
    (hrules' : compileRules interp entries' = .ok rules')
    (hfields : (rules.within o).claimFields o = .ok pending) :
    (rules'.within o).claimFields o = .ok pending ∧
      ∃ g, Board.Rearranges g ((rules.within o).board pending)
        ((rules'.within o).board pending) := by
  let node : List Demand → Object → Prop := fun ds o => CoversRequired ds o ∧ Accounts ds o
  have hdemands : (demands interp node entries o).Perm (demands interp node entries' o) := by
    rw [demands_eq_map, demands_eq_map]
    exact h.map _
  refine ⟨?_, ObjectRules.exists_rearranges_board ?_ pending⟩
  · obtain ⟨hcovers, hmet, hleft⟩ := (claimFields_compileRules_eq_ok_iff hrules).mp hfields
    refine (claimFields_compileRules_eq_ok_iff hrules').mpr
      ⟨(coversRequired_perm hdemands).1 hcovers, fun d hd => hmet d (hdemands.mem_iff.2 hd), ?_⟩
    rw [← hleft]
    exact (unnamedFields_perm hdemands).symm
  · exact (claimants_compileRules_perm hrules o).trans
      ((hdemands.filterMap _).trans (claimants_compileRules_perm hrules' o).symm)

/-- How many fields are left unclaimed does not depend on the order of entries. -/
theorem leftOver?_of_perm_entries (h : entries.Perm entries')
    (hrules : compileRules interp entries = .ok rules)
    (hrules' : compileRules interp entries' = .ok rules')
    (hfields : (rules.within o).claimFields o = .ok pending)
    (hserves : ∃ f, ((rules.within o).board pending).Serves f) :
    leftOver? ((rules'.within o).reconcile o) = leftOver? ((rules.within o).reconcile o) := by
  obtain ⟨n, hn, hleast⟩ := ObjectRules.leftOver?_reconcile hfields hserves
  obtain ⟨hfields', g, hg⟩ := leftover_of_perm_entries h hrules hrules' hfields
  obtain ⟨f, hf⟩ := hserves
  obtain ⟨n', hn', hleast'⟩ := ObjectRules.leftOver?_reconcile hfields' ⟨_, hg.serves hf⟩
  rw [hg.leftovers_eq] at hleast'
  rw [hn, hn', hleast'.unique hleast]

/-- How many fields are left unclaimed does not depend on the order of fields. -/
theorem leftOver?_of_perm_fields (hrules : compileRules interp entries = .ok rules)
    (hnodup : o.keys.Nodup) (h : o.Perm o') :
    leftOver? ((rules.within o').reconcile o') = leftOver? ((rules.within o).reconcile o) := by
  have hget : ∀ name, o'.get? name = o.get? name := Object.get?_eq_of_perm hnodup h
  rw [within_congr hrules fun name _ => hget name]
  have hvalues : ((rules.within o).unnamed o).map Prod.snd |>.Perm
      (((rules.within o).unnamed o').map Prod.snd) := (h.filter _).map Prod.snd
  exact (ObjectRules.sameOutcome_reconcile h.length_eq.symm (fun name _ => hget name)
    hvalues).leftOver?_eq

/-- If the named fields pass and some assignment of the other fields fills every required slot, the
number of fields that are left unclaimed is the least that such an assignment leaves. It is the
same for any order of entries and of fields. -/
theorem leftOver?_eq_least (hrules : compileRules interp entries = .ok rules) (ho : o.Sorted)
    (hfields : (rules.within o).claimFields o = .ok pending)
    (hserves : ∃ f, ((rules.within o).board pending).Serves f) :
    ∃ n, leftOver? ((rules.within o).reconcile o) = some n ∧
      IsLeast ((rules.within o).board pending).leftovers n ∧
      ∀ entries' o', entries.Perm entries' → o.Perm o' →
        ∃ rules', compileRules interp entries' = .ok rules' ∧
          leftOver? ((rules'.within o').reconcile o') = some n := by
  obtain ⟨n, hn, hleast⟩ := ObjectRules.leftOver?_reconcile hfields hserves
  refine ⟨n, hn, hleast, ?_⟩
  intro entries' o' hentries hperm
  obtain ⟨rules', hrules'⟩ := (exists_compileRules_perm hentries).1 ⟨rules, hrules⟩
  refine ⟨rules', hrules', ?_⟩
  rw [leftOver?_of_perm_fields hrules' ho.nodup_keys hperm,
    leftOver?_of_perm_entries hentries hrules hrules' hfields hserves, hn]

/-- Of three fields, one is left over by two wildcards of which one asks for the number 1, since two
of the fields are this number. -/
theorem leftOver?_of_two_wildcards :
    ∃ rules pending,
      compileRules (fun _ _ => true)
        [("a", .literal .null), ("*", .literal (.str "*")), ("(*)", .literal (.num (.int 1)))] =
          .ok rules ∧
      let o : Object :=
        [("a", .null), ("b", .num (.int 1)), ("c", .num (.int 1)), ("d", .num (.int 2))]
      (rules.within o).claimFields o = .ok pending ∧
        leftOver? ((rules.within o).reconcile o) = some 1 ∧
        IsLeast ((rules.within o).board pending).leftovers 1 := by
  let o : Object := [("a", .null), ("b", .num (.int 1)), ("c", .num (.int 1)), ("d", .num (.int 2))]
  have hleft : (match compileRules (fun _ _ => true)
      [("a", .literal .null), ("*", .literal (.str "*")), ("(*)", .literal (.num (.int 1)))] with
    | .ok rules =>
      match (rules.within o).claimFields o with
      | .ok pending =>
        ((rules.within o).board pending).settle.isOk &&
          leftOver? ((rules.within o).reconcile o) == some 1
      | .error _ => false
    | .error _ => false) = true := by
    decide +kernel
  split at hleft
  next rules hrules =>
    split at hleft
    next pending hfields =>
      obtain ⟨hsettle, hone⟩ := Bool.and_eq_true_iff.mp hleft
      have hserves := (Board.exists_settle_ok_iff ((rules.within o).proper_board pending)).mp
        (isOk_iff.mp hsettle)
      obtain ⟨n, hn, hleast, -⟩ :=
        leftOver?_eq_least hrules (by decide +kernel : o.Sorted) hfields hserves
      obtain rfl : n = 1 := Option.some.inj (hn.symm.trans (by simpa using hone))
      exact ⟨rules, pending, hrules, hfields, hn, hleast⟩
    next => cases hleft
  next => cases hleft

end Schema

end ShapeMatch
