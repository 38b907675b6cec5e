import ShapeMatch.Proofs.Assignment.Settle

/-!
# Choosing pairs for slots and slots for pairs

To fill slots is to choose different pairs for them, and to place pairs is to choose slots for them
that have room. Settling does both at once. It succeeds with nothing left over exactly when either
choice can be made, each without regard to the other.

## Main statements

* `Board.fillable_iff_injective`: slots can be filled when different pairs can be chosen for them.
* `Board.exists_settle_ok_iff_fillable`: settling fails only if the required slots cannot be filled.
* `Board.settle_unplaced_nil_iff_fillable`: filling the required slots first is never in the way of
  placing all pairs.
-/

namespace ShapeMatch

variable {pairs slots : Nat}

namespace Board

variable {b : Board pairs slots} {l : List (Fin slots)}

/-- Slots can be filled when different pairs can be chosen for them, one for each. -/
theorem fillable_iff_injective (hl : l.Nodup) :
    b.Fillable l ↔ ∃ pick : Fin l.length → Fin pairs,
      Function.Injective pick ∧ ∀ i, b.fits (pick i) (l.get i) = true := by
  constructor
  · rintro ⟨pick, hsome, hfits, hinj⟩
    have hpick : ∀ i : Fin l.length, ∃ pair, pick (l.get i) = some pair :=
      fun i => Option.isSome_iff_exists.mp (hsome _ (List.get_mem l i))
    choose pick' hpick' using hpick
    refine ⟨pick', ?_, fun i => hfits _ _ (hpick' i)⟩
    intro i j hij
    have hslot := hinj _ _ _ (hpick' i) ((hpick' j).trans (by rw [hij]))
    exact List.nodup_iff_injective_get.mp hl hslot
  · rintro ⟨pick, hinj, hfits⟩
    have hpick : ∀ slot, ∃ o : Option (Fin pairs), (slot ∈ l → o.isSome) ∧
        ∀ pair, o = some pair → ∃ i, l.get i = slot ∧ pick i = pair := by
      intro slot
      by_cases hslot : slot ∈ l
      · obtain ⟨i, hi⟩ := List.mem_iff_get.mp hslot
        exact ⟨some (pick i), fun _ => rfl, fun pair h => ⟨i, hi, Option.some.inj h⟩⟩
      · exact ⟨none, fun h => absurd h hslot, by simp⟩
    choose pick' hsome hpick' using hpick
    refine ⟨pick', hsome, ?_, ?_⟩
    · intro slot pair h
      obtain ⟨i, rfl, rfl⟩ := hpick' slot pair h
      exact hfits i
    · intro slot slot' pair h h'
      obtain ⟨i, rfl, hi⟩ := hpick' slot pair h
      obtain ⟨j, rfl, hj⟩ := hpick' slot' pair h'
      rw [hinj (hi.trans hj.symm)]

/-- Slots are filled with as many pairs. -/
theorem Fillable.length_le (h : b.Fillable l) (hl : l.Nodup) : l.length ≤ pairs := by
  obtain ⟨pick, hinj, -⟩ := (fillable_iff_injective hl).mp h
  simpa using Fintype.card_le_of_injective pick hinj

/-- Settling succeeds exactly when the required slots can be filled. -/
theorem exists_settle_ok_iff_fillable (hb : b.Proper) :
    (∃ q, b.settle = .ok q) ↔ b.Fillable b.requiredSlots := by
  constructor
  · rintro ⟨q, hq⟩
    obtain ⟨-, hfillable, -⟩ := settle_ok hb hq
    exact hfillable
  · intro hfillable
    cases h : b.settle with
    | ok q => exact ⟨q, rfl⟩
    | error e =>
      obtain ⟨before, after, hsplit, -, hnot, -⟩ := settle_error hb h
      exact absurd (hfillable.mono (by simp [hsplit])) hnot

/-- Settling places every pair exactly when the required slots can be filled and all pairs can be
placed, be it by different assignments: since the pairs left over are as few as they can be,
those that fill required slots are in nobody's way. -/
theorem settle_unplaced_nil_iff_fillable (hb : b.Proper) :
    (∃ q, b.settle = .ok q ∧ q.unplaced = []) ↔
      b.Fillable b.requiredSlots ∧
        ∃ place : Fin pairs → Fin slots, (∀ pair, b.fits pair (place pair) = true) ∧
          ∀ pair pair', place pair = place pair' → b.roomy (place pair) = false →
            pair = pair' := by
  constructor
  · intro h
    obtain ⟨f, hf⟩ := (settle_unplaced_nil_iff hb).mp h
    exact ⟨(complete_iff_serves.mp hf).fillable, f, hf.fits, hf.bounded⟩
  · rintro ⟨hfillable, place, hfits, hsingle⟩
    have hallows : b.Allows fun pair => some (place pair) := by
      refine ⟨?_, ?_⟩
      · rintro pair _ ⟨⟩
        exact hfits pair
      · rintro pair pair' _ hslot ⟨⟩ h'
        exact hsingle pair pair' (Option.some.inj h').symm hslot
    obtain ⟨q, hq⟩ := (exists_settle_ok_iff_fillable hb).mpr hfillable
    obtain ⟨-, -, -, hmin⟩ := settle_ok hb hq
    exact ⟨q, hq, List.length_eq_zero_iff.mp (by simpa using hmin _ hallows)⟩

/-- How many slots an owner has filled can be counted among the slots that hold pairs. -/
theorem filled_eq_countP {p : Placement pairs slots} (hl : l.Nodup)
    (hheld : ∀ slot : Fin slots, (p.holder.get slot).isSome ↔ slot ∈ l) (owner : Nat) :
    b.filled p owner = l.countP fun slot => (b.slot.get slot).owner == owner := by
  have hperm : ((List.finRange slots).filter fun slot => (p.holder.get slot).isSome).Perm l := by
    refine (List.perm_ext_iff_of_nodup ((List.nodup_finRange slots).filter _) hl).mpr ?_
    intro slot
    simp [hheld]
  rw [← hperm.countP_eq, List.countP_filter]
  rfl

end Board

end ShapeMatch
