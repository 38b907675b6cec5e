import Mathlib.Order.Bounds.Basic
import ShapeMatch.Proofs.Assignment.Settle

/-!
# How few pairs a board leaves over

Among all placements that fill the required slots, settling finds one with the fewest pairs left
out. How few that is depends on which slots there are and not on their order.

## Main definitions

* `Board.leftovers`: how many pairs placements leave out that fill every required slot.
* `Board.Rearranges`: two boards for the same pairs that have the same slots up to order.

## Main statements

* `Board.isLeast_unplaced`: settling leaves out the least number.
* `Board.Rearranges.leftovers_eq`: the order of slots plays no role.
-/

namespace ShapeMatch

variable {pairs slots slots' : Nat}

namespace Board

/-- How many pairs are left out by the placements that fill every required slot. -/
def leftovers (b : Board pairs slots) : Set Nat :=
  {n | ∃ f, b.Serves f ∧ (Finset.univ.filter fun pair => f pair = none).card = n}

variable {b : Board pairs slots} {b' : Board pairs slots'} {g : Fin slots ≃ Fin slots'}

/-- No placement that fills the required slots leaves out fewer pairs than settling does. -/
theorem isLeast_unplaced (hb : b.Proper) {q : Placement pairs slots} (h : b.settle = .ok q) :
    IsLeast b.leftovers q.unplaced.length := by
  obtain ⟨hsound, -, hrequired, hmin⟩ := settle_ok hb h
  refine ⟨⟨_, hsound.serves hb hrequired, (length_unplaced q).symm⟩, ?_⟩
  rintro n ⟨f, hf, rfl⟩
  exact hmin f hf.toAllows

/-- The required slots are those among all slots that are required, in the same order. -/
theorem map_slot_requiredSlots (b : Board pairs slots) :
    b.requiredSlots.map b.slot.get = b.slot.toList.filter (·.required) := by
  rw [toList_eq_map_get, List.filter_map, requiredSlots]
  rfl

theorem length_requiredSlots (b : Board pairs slots) :
    b.requiredSlots.length = b.slot.toList.countP (·.required) := by
  have hlength := congrArg List.length b.map_slot_requiredSlots
  rwa [List.length_map, ← List.countP_eq_length_filter] at hlength

/-! ## The order of slots -/

/-- The slots of two boards correspond. Who owns them plays no role. -/
structure Rearranges (g : Fin slots ≃ Fin slots') (b : Board pairs slots)
    (b' : Board pairs slots') : Prop where
  required : ∀ slot : Fin slots, (b'.slot.get (g slot)).required = (b.slot.get slot).required
  roomy : ∀ slot, b'.roomy (g slot) = b.roomy slot
  fits : ∀ pair slot, b'.fits pair (g slot) = b.fits pair slot

theorem Rearranges.symm (h : Rearranges g b b') : Rearranges g.symm b' b where
  required slot := by rw [← h.required, Equiv.apply_symm_apply]
  roomy slot := by rw [← h.roomy, Equiv.apply_symm_apply]
  fits pair slot := by rw [← h.fits, Equiv.apply_symm_apply]

/-- Pairs move along with their slots. -/
theorem Rearranges.serves (h : Rearranges g b b') {f : Fin pairs → Option (Fin slots)}
    (hf : b.Serves f) : b'.Serves fun pair => (f pair).map g := by
  refine ⟨⟨?_, ?_⟩, ?_⟩
  · intro pair _ hslot
    obtain ⟨slot, hpair, rfl⟩ := Option.map_eq_some_iff.mp hslot
    rw [h.fits]
    exact hf.fits pair slot hpair
  · intro pair pair' _ hbounded hslot hslot'
    obtain ⟨slot, hpair, rfl⟩ := Option.map_eq_some_iff.mp hslot
    obtain ⟨slot', hpair', heq⟩ := Option.map_eq_some_iff.mp hslot'
    rw [h.roomy] at hbounded
    exact hf.bounded pair pair' slot hbounded hpair (g.injective heq ▸ hpair')
  · intro slot hslot
    rw [← g.apply_symm_apply slot, h.required] at hslot
    obtain ⟨pair, hpair⟩ := hf.required _ hslot
    exact ⟨pair, by simp [hpair]⟩

theorem Rearranges.leftovers_subset (h : Rearranges g b b') : b.leftovers ⊆ b'.leftovers := by
  rintro n ⟨f, hf, rfl⟩
  exact ⟨_, h.serves hf, by simp⟩

/-- Boards with the same slots leave over equally many pairs. -/
theorem Rearranges.leftovers_eq (h : Rearranges g b b') : b'.leftovers = b.leftovers :=
  Set.Subset.antisymm h.symm.leftovers_subset h.leftovers_subset

end Board

end ShapeMatch
