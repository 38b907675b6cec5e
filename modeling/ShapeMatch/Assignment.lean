/-!
# Assigning pairs to slots

A board has pairs to place and slots to hold them. A slot accepts some of the pairs; it may have
to be filled, and it may hold any number of pairs instead of one. Required slots are filled
first, then every other pair is placed if it can be, each time along an augmenting path: a pair
that is in the way moves on to another slot.

A search tries every node at most once: what is still untried shrinks before each recursive
call, which is what makes the searches terminate.

## Main definitions

* `Slot`, `Board`: the problem.
* `Placement`: which slot holds each pair, and which pair each bounded slot holds.
* `Board.fillSlot`, `Board.claimPair`: the two searches.
* `Board.settle`: fills the required slots and places the remaining pairs.
-/

namespace ShapeMatch

/-- A place for pairs. The owner is the rule that the slot belongs to. -/
structure Slot (pairs : Nat) where
  owner : Nat
  required : Bool
  unbounded : Bool
  accepts : Vector Bool pairs

/-- Pairs to place, by number, and the slots for them. -/
structure Board (pairs slots : Nat) where
  slot : Vector (Slot pairs) slots

/-- Which slot holds each pair, and which pair each bounded slot holds. -/
structure Placement (pairs slots : Nat) where
  slotOf : Vector (Option (Fin slots)) pairs
  holder : Vector (Option (Fin pairs)) slots

/-- A search in progress: the placement, the nodes not yet tried in increasing order, and the
number of calls made. -/
structure Search (pairs slots nodes : Nat) where
  placement : Placement pairs slots
  untried : List (Fin nodes)
  calls : Nat

namespace Placement

variable {pairs slots : Nat}

/-- No pair is placed. -/
def empty : Placement pairs slots := ⟨Vector.replicate pairs none, Vector.replicate slots none⟩

/-- The pairs that are placed, in increasing order. -/
def placed (p : Placement pairs slots) : List (Fin pairs) :=
  (List.finRange pairs).filter fun pair => p.slotOf[pair].isSome

/-- The pairs that are not placed, in increasing order. -/
def unplaced (p : Placement pairs slots) : List (Fin pairs) :=
  (List.finRange pairs).filter fun pair => p.slotOf[pair].isNone

end Placement

namespace Search

variable {pairs slots nodes : Nat}

/-- Takes a node off the untried ones. -/
def mark (s : Search pairs slots nodes) (node : Fin nodes) : Search pairs slots nodes :=
  { s with untried := s.untried.erase node }

/-- Counts one more call. -/
def call (s : Search pairs slots nodes) : Search pairs slots nodes :=
  { s with calls := s.calls + 1 }

/-- A search over all nodes, in its first call. -/
def start (p : Placement pairs slots) : Search pairs slots nodes := ⟨p, List.finRange nodes, 1⟩

/-- Marking an untried node leaves fewer untried. -/
theorem length_untried_mark_lt {s : Search pairs slots nodes} {accepts : Fin nodes → Bool}
    {node : Fin nodes} (h : s.untried.find? accepts = some node) :
    (s.mark node).untried.length < s.untried.length := by
  have hmem := List.mem_of_find?_eq_some h
  have hpos := List.length_pos_of_mem hmem
  simp only [mark, List.length_erase_of_mem hmem]
  omega

end Search

namespace Board

variable {pairs slots : Nat}

/-- Whether a slot accepts a pair. -/
def fits (b : Board pairs slots) (pair : Fin pairs) (slot : Fin slots) : Bool :=
  b.slot[slot].accepts[pair]

/-- Puts a pair into a slot. A bounded slot then holds it; the place it had before is
overwritten by whoever takes that place. -/
def assign (b : Board pairs slots) (pair : Fin pairs) (slot : Fin slots)
    (p : Placement pairs slots) : Placement pairs slots where
  slotOf := p.slotOf.set pair (some slot)
  holder := if b.slot[slot].unbounded then p.holder else p.holder.set slot (some pair)

/-- The number of bounded slots of a rule that hold a pair. -/
def filled (b : Board pairs slots) (p : Placement pairs slots) (owner : Nat) : Nat :=
  (List.finRange slots).countP fun slot => b.slot[slot].owner == owner && p.holder[slot].isSome

/-- A search that puts a pair into a slot at the end. -/
def finish (b : Board pairs slots) (pair : Fin pairs) (slot : Fin slots) {nodes : Nat}
    (s : Search pairs slots nodes) : Search pairs slots nodes :=
  { s with placement := b.assign pair slot s.placement }

/-- Looks for a pair for an empty slot. The first untried pair that the slot accepts is taken
if it is not placed, or if another pair can be found for the slot it leaves; otherwise the next
one is tried. -/
def fillSlot (b : Board pairs slots) (slot : Fin slots) (s : Search pairs slots pairs) :
    { r : Bool × Search pairs slots pairs // r.2.untried.length ≤ s.untried.length } :=
  match h : s.untried.find? (b.fits · slot) with
  | none => ⟨(false, s), Nat.le_refl _⟩
  | some pair =>
    have hlt := Search.length_untried_mark_lt h
    match (s.mark pair).placement.slotOf[pair] with
    | none => ⟨(true, b.finish pair slot (s.mark pair)), Nat.le_of_lt hlt⟩
    | some left =>
      match b.fillSlot left (s.mark pair).call with
      | ⟨(true, t), ht⟩ => ⟨(true, b.finish pair slot t), Nat.le_trans ht (Nat.le_of_lt hlt)⟩
      | ⟨(false, t), ht⟩ =>
        have hle := Nat.le_trans ht (Nat.le_of_lt hlt)
        ⟨(b.fillSlot slot t).1, Nat.le_trans (b.fillSlot slot t).2 hle⟩
termination_by s.untried.length
decreasing_by
  · exact hlt
  · exact Nat.lt_of_le_of_lt ht hlt

/-- Looks for a slot for a pair. The first untried slot that accepts the pair is taken if it
has room, or if another slot can be found for the pair it holds; otherwise the next one is
tried. -/
def claimPair (b : Board pairs slots) (pair : Fin pairs) (s : Search pairs slots slots) :
    { r : Bool × Search pairs slots slots // r.2.untried.length ≤ s.untried.length } :=
  match h : s.untried.find? (b.fits pair ·) with
  | none => ⟨(false, s), Nat.le_refl _⟩
  | some slot =>
    have hlt := Search.length_untried_mark_lt h
    match if b.slot[slot].unbounded then none else (s.mark slot).placement.holder[slot] with
    | none => ⟨(true, b.finish pair slot (s.mark slot)), Nat.le_of_lt hlt⟩
    | some held =>
      match b.claimPair held (s.mark slot).call with
      | ⟨(true, t), ht⟩ => ⟨(true, b.finish pair slot t), Nat.le_trans ht (Nat.le_of_lt hlt)⟩
      | ⟨(false, t), ht⟩ =>
        have hle := Nat.le_trans ht (Nat.le_of_lt hlt)
        ⟨(b.claimPair pair t).1, Nat.le_trans (b.claimPair pair t).2 hle⟩
termination_by s.untried.length
decreasing_by
  · exact hlt
  · exact Nat.lt_of_le_of_lt ht hlt

/-- The slots that must be filled, in order. -/
def requiredSlots (b : Board pairs slots) : List (Fin slots) :=
  (List.finRange slots).filter fun slot => b.slot[slot].required

/-- A required slot that cannot be filled, and the placement at that point. -/
structure Shortage (pairs slots : Nat) where
  slot : Fin slots
  placement : Placement pairs slots

/-- Fills slots one after another, up to the first that cannot be filled. -/
def fillAll (b : Board pairs slots) (p : Placement pairs slots) :
    List (Fin slots) → Except (Shortage pairs slots) (Placement pairs slots)
  | [] => .ok p
  | slot :: rest =>
    match (b.fillSlot slot (.start p)).1 with
    | (true, s) => b.fillAll s.placement rest
    | (false, s) => .error ⟨slot, s.placement⟩

/-- Places the pairs that are not placed yet, each if it can be. -/
def claimAll (b : Board pairs slots) (p : Placement pairs slots) :
    List (Fin pairs) → Placement pairs slots
  | [] => p
  | pair :: rest =>
    match p.slotOf[pair] with
    | some _ => b.claimAll p rest
    | none => b.claimAll (b.claimPair pair (.start p)).1.2.placement rest

/-- Fills the required slots, then places the remaining pairs. -/
def settle (b : Board pairs slots) : Except (Shortage pairs slots) (Placement pairs slots) :=
  (b.fillAll .empty b.requiredSlots).map fun p => b.claimAll p (List.finRange pairs)

end Board

end ShapeMatch
