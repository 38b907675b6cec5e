import ShapeMatch.Assignment
import ShapeMatch.Proofs.Assignment.Seating

/-!
# The two searches of an assignment

`Board.claimPair` lets a pair look for a slot and `Board.fillSlot` lets a slot look for a pair.
Seen from the side that looks, either is the search of a guest for a seat.

## Main statements

* `Board.Sound`: the two maps of a placement agree.
* `Board.claimPair_seeks`, `Board.fillSlot_seeks`: the searches as searches for seats.
-/

namespace ShapeMatch

variable {pairs slots : Nat}

theorem toList_eq_map_get {α : Type} {n : Nat} (v : Vector α n) :
    v.toList = (List.finRange n).map v.get := by
  apply List.ext_getElem
  · simp
  · simp [Vector.get]

/-- Pairs as guests of slots. -/
def Placement.seating (p : Placement pairs slots) : Seating (Fin pairs) (Fin slots) where
  seatOf pair := p.slotOf.get pair
  guestAt slot := p.holder.get slot

theorem Placement.eq_of_seating {p q : Placement pairs slots} (h : p.seating = q.seating) :
    p = q := by
  obtain ⟨slotOf, holder⟩ := p
  obtain ⟨slotOf', holder'⟩ := q
  simp only [seating, Seating.mk.injEq] at h
  rw [Placement.mk.injEq]
  exact ⟨Vector.ext fun i hi => congrFun h.1 ⟨i, hi⟩, Vector.ext fun i hi => congrFun h.2 ⟨i, hi⟩⟩

namespace Board

/-- Whether a slot holds any number of pairs. -/
def roomy (b : Board pairs slots) (slot : Fin slots) : Bool := (b.slot.get slot).unbounded

theorem fits_eq (b : Board pairs slots) (pair : Fin pairs) (slot : Fin slots) :
    b.fits pair slot = (b.slot.get slot).accepts.get pair := rfl

/-- The maps of a placement agree on bounded slots, unbounded ones record nobody, and every pair
is where it fits. -/
def Sound (b : Board pairs slots) (p : Placement pairs slots) : Prop :=
  p.seating.Valid b.roomy b.fits

/-- No pair is in an unbounded slot. -/
def Bounded (b : Board pairs slots) (p : Placement pairs slots) : Prop :=
  ∀ (pair : Fin pairs) (slot : Fin slots), p.slotOf.get pair = some slot → b.roomy slot = false

variable {b : Board pairs slots} {p : Placement pairs slots}

theorem sound_empty (b : Board pairs slots) : b.Sound .empty := by
  constructor <;> simp [Placement.seating, Placement.empty, Vector.get]

theorem bounded_empty (b : Board pairs slots) : b.Bounded .empty := by
  simp [Bounded, Placement.empty, Vector.get]

/-! ## Placing a pair -/

theorem slotOf_assign (b : Board pairs slots) (pair x : Fin pairs) (slot : Fin slots)
    (p : Placement pairs slots) :
    (b.assign pair slot p).slotOf.get x = if x = pair then some slot else p.slotOf.get x := by
  change (p.slotOf.set pair (some slot))[x] = if x = pair then some slot else p.slotOf[x]
  simp only [Fin.getElem_fin, Vector.getElem_set, Fin.val_inj, eq_comm]

theorem holder_assign (b : Board pairs slots) (pair : Fin pairs) (slot c : Fin slots)
    (p : Placement pairs slots) :
    (b.assign pair slot p).holder.get c =
      if c = slot ∧ b.roomy slot = false then some pair else p.holder.get c := by
  change (if b.roomy slot = true then p.holder else p.holder.set slot (some pair))[c] =
    if c = slot ∧ b.roomy slot = false then some pair else p.holder[c]
  cases b.roomy slot with
  | true => simp
  | false => simp [Vector.getElem_set, Fin.val_inj, eq_comm]

theorem seating_assign (b : Board pairs slots) (pair : Fin pairs) (slot : Fin slots)
    (p : Placement pairs slots) :
    (b.assign pair slot p).seating = p.seating.take b.roomy pair slot := by
  simp only [Placement.seating, Seating.take, Seating.mk.injEq]
  exact ⟨funext fun x => slotOf_assign b pair x slot p,
    funext fun c => holder_assign b pair slot c p⟩

/-- Into a bounded slot, it makes no difference which side looked for the other. -/
theorem seating_assign_flip {slot : Fin slots} (hslot : b.roomy slot = false) (pair : Fin pairs)
    (p : Placement pairs slots) :
    (b.assign pair slot p).seating.flip = p.seating.flip.take (fun _ => false) slot pair := by
  simp [seating_assign, Seating.take, Seating.flip, hslot]

@[simp] theorem placement_finish {nodes : Nat} (b : Board pairs slots) (pair : Fin pairs)
    (slot : Fin slots) (s : Search pairs slots nodes) :
    (b.finish pair slot s).placement = b.assign pair slot s.placement := rfl

/-! ## The searches -/

/-- A pair looks for a slot as a guest for a seat, provided unbounded slots record nobody. -/
theorem claimPair_seeks (b : Board pairs slots) (pair : Fin pairs) (s : Search pairs slots slots)
    (hroomy : ∀ slot : Fin slots, b.roomy slot = true → s.placement.holder.get slot = none) :
    Seating.Seeks b.roomy b.fits pair s.placement.seating s.untried (b.claimPair pair s).1.1
      (b.claimPair pair s).1.2.placement.seating (b.claimPair pair s).1.2.untried := by
  fun_induction claimPair b pair s with
  | case1 pair s hnone => exact .exhausted hnone
  | case2 pair s slot hfind hlt hroom =>
    have hvacant : s.placement.holder.get slot = none := by
      split at hroom
      next hslot => exact hroomy slot hslot
      next => exact hroom
    rw [placement_finish, seating_assign]
    exact .vacant hfind hvacant
  | case3 pair s slot hfind hlt held hheld t ht hclaim ih =>
    have hguest : s.placement.holder.get slot = some held :=
      (Option.dite_none_left_eq_some.1 hheld).2
    have hseeks := ih hroomy
    rw [hclaim] at hseeks
    rw [placement_finish, seating_assign]
    exact .moved hfind hguest hseeks
  | case4 pair s slot hfind hlt held hheld t ht hclaim hle ih ih' =>
    have hguest : s.placement.holder.get slot = some held :=
      (Option.dite_none_left_eq_some.1 hheld).2
    have hseeks := ih hroomy
    rw [hclaim] at hseeks
    have hsame : t.placement = s.placement := Placement.eq_of_seating hseeks.eq_of_failed
    exact .stuck hfind hguest hseeks (ih' (hsame ▸ hroomy))

/-- A bounded slot looks for a pair as a guest for a seat, provided no pair is in an unbounded
slot. -/
theorem fillSlot_seeks (b : Board pairs slots) (slot : Fin slots) (s : Search pairs slots pairs)
    (hslot : b.roomy slot = false) (hbounded : b.Bounded s.placement) :
    Seating.Seeks (fun _ => false) (fun slot pair => b.fits pair slot) slot
      s.placement.seating.flip s.untried (b.fillSlot slot s).1.1
      (b.fillSlot slot s).1.2.placement.seating.flip (b.fillSlot slot s).1.2.untried := by
  fun_induction fillSlot b slot s with
  | case1 slot s hnone => exact .exhausted hnone
  | case2 slot s pair hfind hlt hfree =>
    rw [placement_finish, seating_assign_flip hslot]
    exact .vacant hfind hfree
  | case3 slot s pair hfind hlt left hleft t ht hfill ih =>
    have hseeks := ih (hbounded pair left hleft) hbounded
    rw [hfill] at hseeks
    rw [placement_finish, seating_assign_flip hslot]
    exact .moved hfind hleft hseeks
  | case4 slot s pair hfind hlt left hleft t ht hfill hle ih ih' =>
    have hseeks := ih (hbounded pair left hleft) hbounded
    rw [hfill] at hseeks
    have hflip : t.placement.seating.flip = s.placement.seating.flip := hseeks.eq_of_failed
    have hsame : t.placement = s.placement :=
      Placement.eq_of_seating (congrArg Seating.flip hflip)
    exact .stuck hfind hleft hseeks (ih' hslot (hsame ▸ hbounded))

end Board

end ShapeMatch
