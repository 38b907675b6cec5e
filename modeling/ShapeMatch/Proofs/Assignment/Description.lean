import Mathlib.Data.List.FinRange
import ShapeMatch.Proofs.Assignment.Course
import ShapeMatch.Proofs.Assignment.Effort
import ShapeMatch.Proofs.Assignment.Ledger

/-!
# Ledgers of boards

A ledger can be about a board and hold a placement. Searches in lists then have the results of the
searches on the board, and settling in lists has that of settling: pairs and slots are tried in the
same order, and marks are the nodes that are not untried.

## Main definitions

* `Ledger.marks`: the marks of a search.
* `Ledger.Describes`, `Ledger.holding`: a ledger is about a board, and holds a placement.

## Main statements

* `Ledger.Describes.fillSlot?_eq`, `Ledger.Describes.claimPair?_eq`: each search has the result of
  the search on the board.
* `Ledger.Describes.settle?_eq`: so has settling.
-/

namespace ShapeMatch

theorem Owner.column_inj {groups : Nat} {owner owner' : Owner}
    (h : ∀ i, owner = .group i → i < groups) (h' : ∀ i, owner' = .group i → i < groups) :
    owner.column groups = owner'.column groups ↔ owner = owner' := by
  cases owner <;> cases owner' <;> simp_all [column] <;> omega

/-- What is known of a slot but the pairs it accepts. The owner is known by its column. -/
def SlotRecord.outline (groups : Nat) (r : SlotRecord) : Nat × Bool × Bool :=
  (r.owner.column groups, r.required, r.unbounded)

/-- What is known of a slot but the pairs it accepts. -/
def Slot.outline {pairs : Nat} (s : Slot pairs) : Nat × Bool × Bool :=
  (s.owner, s.required, s.unbounded)

namespace Ledger

/-! ## Marks of a search -/

section

variable {n : Nat}

/-- The marks of a search with the given nodes untried. -/
def marks (untried : List (Fin n)) : List Bool :=
  (List.finRange n).map fun i => decide (i ∉ untried)

theorem getElem?_marks (untried : List (Fin n)) (i : Fin n) :
    (marks untried)[i.val]? = some (decide (i ∉ untried)) := by
  simp [marks]

theorem marks_finRange : marks (List.finRange n) = List.replicate n false := by
  simp [marks]

theorem set_marks {untried : List (Fin n)} (h : untried.Nodup) (node : Fin n) :
    (marks untried).set node.val true = marks (untried.erase node) := by
  refine List.ext_getElem (by simp [marks]) fun i hi hi' => ?_
  have hn : i < n := by simpa [marks] using hi'
  by_cases hnode : node.val = i
  · subst hnode
    simp [marks, h.not_mem_erase]
  · have hne : (⟨i, hn⟩ : Fin n) ≠ node := fun heq => hnode (congrArg Fin.val heq).symm
    simp [marks, List.getElem_set_ne hnode, List.mem_erase_of_ne hne]

variable {side : Side} {a : Ledger} {seeker start : Nat} {fits : Fin n → Bool}
  {untried rest : List (Fin n)} {node : Fin n}

/-- What a side of a ledger tells a seeker: how many nodes there are, and which of them fit. -/
structure Side.Tells (side : Side) (a : Ledger) (seeker : Nat) (fits : Fin n → Bool) : Prop where
  count_eq : side.count a = n
  accepts?_eq : ∀ i : Fin n, side.accepts? a seeker i.val = some (fits i)

/-- Nodes that are untried but not reached any more do not fit. -/
def Passed (fits : Fin n → Bool) (untried : List (Fin n)) (start : Nat) : Prop :=
  ∀ i ∈ untried, i.val < start → fits i = false

theorem Passed.zero (fits : Fin n → Bool) (untried : List (Fin n)) : Passed fits untried 0 :=
  fun _ _ hlt => absurd hlt (Nat.not_lt_zero _)

theorem Side.Tells.tries?_eq (h : side.Tells a seeker fits) (untried : List (Fin n)) (i : Fin n) :
    tries? side a seeker (marks untried) i.val = some (decide (i ∈ untried) && fits i) := by
  rw [tries?, getElem?_marks, Option.bind_eq_bind, Option.bind_some]
  by_cases hi : i ∈ untried <;> simp [hi, h.accepts?_eq]

/-- A loop goes on over nodes that are marked or do not fit. -/
theorem Side.Tells.run?_skip_to (h : side.Tells a seeker fits) {stop : Nat} (hle : start ≤ stop)
    (hstop : stop ≤ n) (hskip : Passed fits untried stop) :
    run? side a seeker (marks untried) start = run? side a seeker (marks untried) stop := by
  obtain ⟨k, rfl⟩ := Nat.exists_eq_add_of_le hle
  induction k generalizing start with
  | zero => rfl
  | succ k ih =>
    have hn : start < n := by omega
    have htries : tries? side a seeker (marks untried) start = some false := by
      rw [h.tries?_eq untried ⟨start, hn⟩]
      by_cases hmem : ⟨start, hn⟩ ∈ untried
      · simp [hskip _ hmem (by simp)]
      · simp [hmem]
    have hnext : start + (k + 1) = start + 1 + k := by omega
    rw [run?_skip (h.count_eq ▸ hn) htries, hnext]
    exact ih (by omega) (by omega) (hnext ▸ hskip)

theorem Side.Tells.run?_none (h : side.Tells a seeker fits) (hfind : untried.find? fits = none) :
    run? side a seeker (marks untried) start = some (false, a, marks untried) := by
  rw [List.find?_eq_none] at hfind
  rcases Nat.le_total start n with hle | hle
  · rw [h.run?_skip_to hle (Nat.le_refl n) fun i hi _ => by simpa using hfind i hi]
    exact run?_exhausted (Nat.le_of_eq h.count_eq)
  · exact run?_exhausted (h.count_eq ▸ hle)

/-- Untried nodes before the first that fits do not fit. -/
theorem passed_of_find? (hsorted : untried.Pairwise (· < ·))
    (hfind : untried.find? fits = some node) : Passed fits untried node.val := by
  obtain ⟨-, before, after, rfl, hbefore⟩ := List.find?_eq_some_iff_append.mp hfind
  intro i hi hlt
  rcases List.mem_append.mp hi with hi | hi
  · simpa using hbefore i hi
  · -- what comes after the node in increasing order is not less
    have hafter := (List.pairwise_append.mp hsorted).2.1
    rcases List.mem_cons.mp hi with rfl | hi
    · omega
    · exact absurd ((List.pairwise_cons.mp hafter).1 i hi) (by omega)

/-- A loop goes on to the first untried node that fits. -/
theorem Side.Tells.run?_some (h : side.Tells a seeker fits) (hsorted : untried.Pairwise (· < ·))
    (hpassed : Passed fits untried start) (hfind : untried.find? fits = some node) :
    node.val < side.count a ∧ tries? side a seeker (marks untried) node.val = some true ∧
      run? side a seeker (marks untried) start = run? side a seeker (marks untried) node.val := by
  have hfits := List.find?_some hfind
  have hmem := List.mem_of_find?_eq_some hfind
  have hle : start ≤ node.val := by
    by_contra hlt
    simp [hpassed node hmem (by omega)] at hfits
  refine ⟨by rw [h.count_eq]; exact node.isLt, ?_, ?_⟩
  · simp [h.tries?_eq, hmem, hfits]
  · exact h.run?_skip_to hle (Nat.le_of_lt node.isLt) (passed_of_find? hsorted hfind)

/-- After a node that fits was of no use, the loop goes on behind it. -/
theorem Passed.next (hsorted : untried.Pairwise (· < ·)) (hfind : untried.find? fits = some node)
    (hrest : rest.Sublist (untried.erase node)) : Passed fits rest (node.val + 1) := by
  intro i hi hlt
  have hmem := (hsorted.nodup.mem_erase_iff).mp (hrest.subset hi)
  have hne : i.val ≠ node.val := fun heq => hmem.1 (Fin.ext heq)
  exact passed_of_find? hsorted hfind i hmem.2 (by omega)

variable {a' a'' : Ledger} {other : Nat} {visited : List Bool}

theorem Side.Tells.run?_taken (h : side.Tells a seeker fits) (hsorted : untried.Pairwise (· < ·))
    (hpassed : Passed fits untried start) (hfind : untried.find? fits = some node)
    (hvacant : side.occupant? a node.val = some none)
    (hassign : side.assign? a seeker node.val = some a') :
    run? side a seeker (marks untried) start = some (true, a', marks (untried.erase node)) := by
  obtain ⟨hnode, htries, hrun⟩ := h.run?_some hsorted hpassed hfind
  rw [hrun, run?_vacant hnode htries hvacant hassign, set_marks hsorted.nodup]

theorem Side.Tells.run?_moved (h : side.Tells a seeker fits) (hsorted : untried.Pairwise (· < ·))
    (hpassed : Passed fits untried start) (hfind : untried.find? fits = some node)
    (hother : side.occupant? a node.val = some (some other))
    (hinner : run? side a other (marks (untried.erase node)) 0 = some (true, a', visited))
    (hassign : side.assign? a' seeker node.val = some a'') :
    run? side a seeker (marks untried) start = some (true, a'', visited) := by
  obtain ⟨hnode, htries, hrun⟩ := h.run?_some hsorted hpassed hfind
  rw [← set_marks hsorted.nodup] at hinner
  rw [hrun, Ledger.run?_moved hnode htries hother hinner hassign]

theorem Side.Tells.run?_stuck (h : side.Tells a seeker fits) (hsorted : untried.Pairwise (· < ·))
    (hpassed : Passed fits untried start) (hfind : untried.find? fits = some node)
    (hother : side.occupant? a node.val = some (some other))
    (hinner : run? side a other (marks (untried.erase node)) 0 = some (false, a', visited)) :
    run? side a seeker (marks untried) start = run? side a' seeker visited (node.val + 1) := by
  obtain ⟨hnode, htries, hrun⟩ := h.run?_some hsorted hpassed hfind
  rw [← set_marks hsorted.nodup] at hinner
  rw [hrun, Ledger.run?_stuck hnode htries hother hinner]

end

/-! ## Ledgers of boards -/

variable {pairs slots : Nat}

/-- A ledger is about a board: it records the slots in order, has a row for each pair that tells
whether a slot accepts it, and knows no group beyond the last one. -/
structure Describes (a : Ledger) (b : Board pairs slots) : Prop where
  slots_eq : a.slots.map (SlotRecord.outline a.groups) = b.slot.toList.map Slot.outline
  length_rows : a.rows.length = pairs
  row_eq : ∀ pair slot, ∃ row, a.rows[pair.val]? = some row ∧
    row[(b.slot.get slot).owner]? = some (b.fits pair slot)
  group_lt : ∀ r ∈ a.slots, ∀ i, r.owner = .group i → i < a.groups

/-- A ledger that holds a placement. -/
def holding (a : Ledger) (p : Placement pairs slots) : Ledger :=
  { a with
    slotOf := p.slotOf.toList.map (Option.map Fin.val)
    holder := p.holder.toList.map (Option.map Fin.val) }

/-- The outcome of a search as it is in lists. -/
def outcome {nodes : Nat} (a : Ledger) (r : Bool × Search pairs slots nodes) :
    Bool × Ledger × List Bool :=
  (r.1, a.holding r.2.placement, marks r.2.untried)

/-- The outcome of settling as it is in lists. -/
def settled (a : Ledger) :
    Except (Board.Shortage pairs slots) (Placement pairs slots) → Except (Nat × Ledger) Ledger
  | .ok p => .ok (a.holding p)
  | .error short => .error (short.slot.val, a.holding short.placement)

theorem getElem?_slotOf (a : Ledger) (p : Placement pairs slots) (pair : Fin pairs) :
    (a.holding p).slotOf[pair.val]? = some ((p.slotOf.get pair).map Fin.val) := by
  simp [holding, Vector.get]

theorem getElem?_holder (a : Ledger) (p : Placement pairs slots) (slot : Fin slots) :
    (a.holding p).holder[slot.val]? = some ((p.holder.get slot).map Fin.val) := by
  simp [holding, Vector.get]

theorem occupant?_slot (a : Ledger) (p : Placement pairs slots) (pair : Fin pairs)
    {left : Option (Fin slots)} (hleft : p.slotOf.get pair = left) :
    Side.slot.occupant? (a.holding p) pair.val = some (left.map Fin.val) := by
  rw [← hleft]
  exact a.getElem?_slotOf p pair

namespace Describes

variable {a : Ledger} {b : Board pairs slots}

theorem length_slots (h : a.Describes b) : a.slots.length = slots := by
  simpa using congrArg List.length h.slots_eq

theorem getElem?_slots (h : a.Describes b) (slot : Fin slots) :
    ∃ r, a.slots[slot.val]? = some r ∧ r.outline a.groups = (b.slot.get slot).outline := by
  have hget := congrArg (·[slot.val]?) h.slots_eq
  simpa [Vector.get] using hget

theorem accepts?_eq (h : a.Describes b) (p : Placement pairs slots) (pair : Fin pairs)
    (slot : Fin slots) : (a.holding p).accepts? pair.val slot.val = some (b.fits pair slot) := by
  obtain ⟨r, hr, houtline⟩ := h.getElem?_slots slot
  obtain ⟨row, hrow, hfits⟩ := h.row_eq pair slot
  have howner : r.owner.column a.groups = (b.slot.get slot).owner := congrArg (·.1) houtline
  simp [accepts?, holding, hr, hrow, howner, hfits]

theorem tells_slot (h : a.Describes b) (p : Placement pairs slots) (slot : Fin slots) :
    Side.slot.Tells (a.holding p) slot.val (b.fits · slot) :=
  ⟨h.length_rows, fun pair => h.accepts?_eq p pair slot⟩

theorem tells_pair (h : a.Describes b) (p : Placement pairs slots) (pair : Fin pairs) :
    Side.pair.Tells (a.holding p) pair.val (b.fits pair) :=
  ⟨h.length_slots, fun slot => h.accepts?_eq p pair slot⟩

theorem assign?_eq (h : a.Describes b) (p : Placement pairs slots) (pair : Fin pairs)
    (slot : Fin slots) :
    (a.holding p).assign? pair.val slot.val = some (a.holding (b.assign pair slot p)) := by
  obtain ⟨r, hr, houtline⟩ := h.getElem?_slots slot
  have hunbounded : r.unbounded = b.slot[slot].unbounded := congrArg (·.2.2) houtline
  rw [Board.assign, ← hunbounded]
  cases hroomy : r.unbounded <;>
    simp [assign?, write?, holding, hr, hroomy, Vector.toList_set, List.map_set]

theorem occupant?_pair (h : a.Describes b) (p : Placement pairs slots) (slot : Fin slots)
    {held : Option (Fin pairs)}
    (hheld : (if b.roomy slot then none else p.holder.get slot) = held) :
    Side.pair.occupant? (a.holding p) slot.val = some (held.map Fin.val) := by
  obtain ⟨r, hr, houtline⟩ := h.getElem?_slots slot
  have hroomy : r.unbounded = b.roomy slot := congrArg (·.2.2) houtline
  have hslots : (a.holding p).slots[slot.val]? = some r := hr
  rw [← hheld, Side.occupant?, hslots, getElem?_holder, ← hroomy]
  cases hr : r.unbounded <;> simp [hr]

/-! ## Searches -/

/-- The search of a slot in lists has the result of the search on the board. -/
theorem run?_slot (h : a.Describes b) (slot : Fin slots) (s : Search pairs slots pairs)
    (hsorted : s.untried.Pairwise (· < ·)) {start : Nat}
    (hpassed : Passed (b.fits · slot) s.untried start) :
    run? .slot (a.holding s.placement) slot.val (marks s.untried) start =
      some (a.outcome (b.fillSlot slot s).1) := by
  fun_induction Board.fillSlot b slot s generalizing start with
  | case1 slot s hfind => exact (h.tells_slot _ slot).run?_none hfind
  | case2 slot s pair hfind hlt hvacant =>
    have hoccupant := a.occupant?_slot s.placement pair hvacant
    exact (h.tells_slot _ slot).run?_taken hsorted hpassed hfind hoccupant (h.assign?_eq ..)
  | case3 slot s pair hfind hlt left hleft t ht hfill ih =>
    have hoccupant := a.occupant?_slot s.placement pair hleft
    have hinner := ih (hsorted.sublist List.erase_sublist) (Passed.zero _ _)
    rw [hfill] at hinner
    exact (h.tells_slot _ slot).run?_moved hsorted hpassed hfind hoccupant hinner (h.assign?_eq ..)
  | case4 slot s pair hfind hlt left hleft t ht hfill hle ih ih' =>
    have hoccupant := a.occupant?_slot s.placement pair hleft
    have hinner := ih (hsorted.sublist List.erase_sublist) (Passed.zero _ _)
    have hrest := (b.fillSlot_spends left (s.mark pair).call).sublist
    rw [hfill] at hinner hrest
    rw [(h.tells_slot _ slot).run?_stuck hsorted hpassed hfind hoccupant hinner]
    exact ih' (hsorted.sublist (hrest.trans List.erase_sublist)) (.next hsorted hfind hrest)

/-- The search of a pair in lists has the result of the search on the board. -/
theorem run?_pair (h : a.Describes b) (pair : Fin pairs) (s : Search pairs slots slots)
    (hsorted : s.untried.Pairwise (· < ·)) {start : Nat}
    (hpassed : Passed (b.fits pair) s.untried start) :
    run? .pair (a.holding s.placement) pair.val (marks s.untried) start =
      some (a.outcome (b.claimPair pair s).1) := by
  fun_induction Board.claimPair b pair s generalizing start with
  | case1 pair s hfind => exact (h.tells_pair _ pair).run?_none hfind
  | case2 pair s slot hfind hlt hvacant =>
    have hoccupant := h.occupant?_pair s.placement slot hvacant
    exact (h.tells_pair _ pair).run?_taken hsorted hpassed hfind hoccupant (h.assign?_eq ..)
  | case3 pair s slot hfind hlt held hheld t ht hclaim ih =>
    have hoccupant := h.occupant?_pair s.placement slot hheld
    have hinner := ih (hsorted.sublist List.erase_sublist) (Passed.zero _ _)
    rw [hclaim] at hinner
    exact (h.tells_pair _ pair).run?_moved hsorted hpassed hfind hoccupant hinner (h.assign?_eq ..)
  | case4 pair s slot hfind hlt held hheld t ht hclaim hle ih ih' =>
    have hoccupant := h.occupant?_pair s.placement slot hheld
    have hinner := ih (hsorted.sublist List.erase_sublist) (Passed.zero _ _)
    have hrest := (b.claimPair_spends held (s.mark slot).call).sublist
    rw [hclaim] at hinner hrest
    rw [(h.tells_pair _ pair).run?_stuck hsorted hpassed hfind hoccupant hinner]
    exact ih' (hsorted.sublist (hrest.trans List.erase_sublist)) (.next hsorted hfind hrest)

theorem fillSlot?_eq (h : a.Describes b) (slot : Fin slots) (p : Placement pairs slots) :
    run? .slot (a.holding p) slot.val (List.replicate pairs false) 0 =
      some (a.outcome (b.fillSlot slot (.start p)).1) := by
  rw [← marks_finRange]
  exact h.run?_slot slot (.start p) (List.pairwise_lt_finRange _) (Passed.zero _ _)

theorem claimPair?_eq (h : a.Describes b) (pair : Fin pairs) (p : Placement pairs slots) :
    run? .pair (a.holding p) pair.val (List.replicate (a.holding p).slots.length false) 0 =
      some (a.outcome (b.claimPair pair (.start p)).1) := by
  rw [show (a.holding p).slots.length = slots from h.length_slots, ← marks_finRange]
  exact h.run?_pair pair (.start p) (List.pairwise_lt_finRange _) (Passed.zero _ _)

/-! ## Settling -/

theorem fillEach?_eq (h : a.Describes b) (l : List (Fin slots)) (p : Placement pairs slots) :
    (a.holding p).fillEach? pairs (l.map Fin.val) =
      some (a.settled (b.fillAll p (l.filter fun slot => (b.slot.get slot).required))) := by
  induction l generalizing p with
  | nil => rfl
  | cons slot rest ih =>
    obtain ⟨r, hr, houtline⟩ := h.getElem?_slots slot
    have hslots : (a.holding p).slots[slot.val]? = some r := hr
    have hrequired : r.required = (b.slot.get slot).required := congrArg (·.2.1) houtline
    rw [List.map_cons, fillEach?, hslots, List.filter_cons, ← hrequired, h.fillSlot?_eq]
    cases hneeded : r.required with
    | false => simpa [hneeded] using ih p
    | true =>
      rcases hfill : (b.fillSlot slot (.start p)).1 with ⟨found, t⟩
      cases found with
      | true => simpa [hneeded, Board.fillAll, hfill, outcome] using ih t.placement
      | false => simp [hneeded, Board.fillAll, hfill, outcome, settled]

theorem claimEach?_eq (h : a.Describes b) (l : List (Fin pairs)) (p : Placement pairs slots) :
    (a.holding p).claimEach? (l.map Fin.val) = some (a.holding (b.claimAll p l)) := by
  induction l generalizing p with
  | nil => rfl
  | cons pair rest ih =>
    rw [List.map_cons, claimEach?, getElem?_slotOf, h.claimPair?_eq]
    cases hplace : p.slotOf.get pair with
    | some slot =>
      have hskip : b.claimAll p (pair :: rest) = b.claimAll p rest :=
        Board.claimAll_cons_of_placed (by simp [hplace]) rest
      simpa [hskip] using ih p
    | none => simpa [Board.claimAll_cons_of_unplaced hplace, outcome] using ih _

theorem fillEach?_range (h : a.Describes b) (p : Placement pairs slots) :
    (a.holding p).fillEach? pairs (List.range (a.holding p).slots.length) =
      some (a.settled (b.fillAll p b.requiredSlots)) := by
  rw [show (a.holding p).slots.length = slots from h.length_slots, ← List.map_coe_finRange_eq_range]
  exact h.fillEach?_eq (List.finRange slots) p

theorem claimEach?_range (h : a.Describes b) (p : Placement pairs slots) :
    (a.holding p).claimEach? (List.range pairs) =
      some (a.holding (b.claimAll p (List.finRange pairs))) := by
  rw [← List.map_coe_finRange_eq_range]
  exact h.claimEach?_eq (List.finRange pairs) p

/-- Settling in lists has the result of settling the board. -/
theorem settle?_eq (h : a.Describes b) :
    (a.holding (.empty : Placement pairs slots)).settle? pairs = some (a.settled b.settle) := by
  rw [settle?, h.fillEach?_range, Board.settle]
  cases b.fillAll .empty b.requiredSlots with
  | error short => rfl
  | ok p => simp [settled, h.claimEach?_range, Except.map]

/-- The slots of a rule that hold a pair are counted as on the board. -/
theorem filled_eq (h : a.Describes b) (p : Placement pairs slots) {slot : Fin slots}
    {r : SlotRecord} (hr : a.slots[slot.val]? = some r) :
    (a.holding p).filled r.owner = b.filled p (b.slot.get slot).owner := by
  obtain ⟨r', hr', houtline⟩ := h.getElem?_slots slot
  obtain rfl : r' = r := Option.some.inj (hr'.symm.trans hr)
  have howner : r'.owner.column a.groups = (b.slot.get slot).owner := congrArg (·.1) houtline
  have hr := List.mem_of_getElem? hr
  let here (entry : (Nat × Bool × Bool) × Option Nat) : Bool :=
    entry.1.1 == (b.slot.get slot).owner && entry.2.isSome
  calc (a.holding p).filled r'.owner
      = (a.slots.zip (p.holder.toList.map (Option.map Fin.val))).countP fun entry =>
          here (entry.1.outline a.groups, entry.2) := by
        refine List.countP_congr fun entry hentry => ?_
        have hmem : entry.1 ∈ a.slots := (List.of_mem_zip hentry).1
        simp [here, SlotRecord.outline, ← howner,
          Owner.column_inj (h.group_lt _ hmem) (h.group_lt _ hr)]
    _ = ((a.slots.map (SlotRecord.outline a.groups)).zip
          (p.holder.toList.map (Option.map Fin.val))).countP here := by
        rw [List.zip_map_left, List.countP_map]
        rfl
    _ = b.filled p (b.slot.get slot).owner := by
        rw [h.slots_eq, List.zip_map, List.countP_map, toList_eq_map_get, toList_eq_map_get,
          List.zip_map', List.countP_map]
        simp [here, Board.filled, Slot.outline, Function.comp_def, Vector.get]

end Describes

end Ledger

end ShapeMatch
