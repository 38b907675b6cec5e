import ShapeMatch.Proofs.Assignment.Settle

/-!
# Numbering pairs differently

When pairs are numbered in another order, every search takes other paths. What a board settles to
is the same still: which required slot stays empty first, which slots are filled by then, and how
many pairs are left over. All three are extremal, and so they do not depend on the search.

## Main definitions

* `Board.Renumbers`: two boards that differ in the numbers of pairs only.

## Main statements

* `Board.Renumbers.settle_cases`: such boards settle alike.
-/

namespace ShapeMatch

variable {pairs pairs' slots : Nat}

namespace Board

/-- The slots of two boards agree, and accept corresponding pairs. -/
structure Renumbers (e : Fin pairs ≃ Fin pairs') (b : Board pairs slots) (b' : Board pairs' slots) :
    Prop where
  owner : ∀ slot : Fin slots, (b'.slot.get slot).owner = (b.slot.get slot).owner
  required : ∀ slot : Fin slots, (b'.slot.get slot).required = (b.slot.get slot).required
  unbounded : ∀ slot : Fin slots, (b'.slot.get slot).unbounded = (b.slot.get slot).unbounded
  fits : ∀ pair slot, b'.fits (e pair) slot = b.fits pair slot

variable {e : Fin pairs ≃ Fin pairs'} {b : Board pairs slots} {b' : Board pairs' slots}
  {q : Placement pairs slots} {q' : Placement pairs' slots}

theorem Renumbers.symm (h : Renumbers e b b') : Renumbers e.symm b' b where
  owner slot := (h.owner slot).symm
  required slot := (h.required slot).symm
  unbounded slot := (h.unbounded slot).symm
  fits pair slot := by rw [← h.fits, Equiv.apply_symm_apply]

theorem Renumbers.requiredSlots_eq (h : Renumbers e b b') : b'.requiredSlots = b.requiredSlots :=
  List.filter_congr fun slot _ => h.required slot

theorem Renumbers.fillable (h : Renumbers e b b') {l : List (Fin slots)} (hl : b.Fillable l) :
    b'.Fillable l := by
  obtain ⟨pick, hsome, hfits, hinj⟩ := hl
  refine ⟨fun slot => (pick slot).map e, fun slot hslot => by simpa using hsome slot hslot,
    fun slot pair hpair => ?_, fun slot slot' pair hslot hslot' => ?_⟩
  · obtain ⟨x, hx, rfl⟩ := Option.map_eq_some_iff.mp hpair
    rw [h.fits]
    exact hfits slot x hx
  · obtain ⟨x, hx, rfl⟩ := Option.map_eq_some_iff.mp hslot
    obtain ⟨y, hy, hxy⟩ := Option.map_eq_some_iff.mp hslot'
    exact hinj slot slot' x hx (e.injective hxy ▸ hy)

theorem Renumbers.fillable_iff (h : Renumbers e b b') {l : List (Fin slots)} :
    b'.Fillable l ↔ b.Fillable l :=
  ⟨h.symm.fillable, h.fillable⟩

theorem Renumbers.allows (h : Renumbers e b b') {f : Fin pairs → Option (Fin slots)}
    (hf : b.Allows f) : b'.Allows fun pair => f (e.symm pair) where
  fits pair slot hslot := by
    rw [← hf.fits _ _ hslot, ← h.fits, Equiv.apply_symm_apply]
  bounded pair pair' slot hroomy hslot hslot' := by
    refine e.symm.injective (hf.bounded _ _ slot ?_ hslot hslot')
    rwa [roomy, ← h.unbounded]

theorem Renumbers.unplaced_le (h : Renumbers e b b') (hproper : b'.Proper) (hq : b.Sound q)
    (hq' : b'.settle = .ok q') : q'.unplaced.length ≤ q.unplaced.length := by
  obtain ⟨-, -, -, hmin⟩ := settle_ok hproper hq'
  refine (hmin _ (h.allows hq.allows)).trans_eq ?_
  rw [length_unplaced]
  exact Finset.card_equiv e.symm fun pair => by simp

/-- A fillable list that goes on after `before` does not go on with a slot that cannot be filled
along with `before`. -/
theorem eq_nil_of_fillable {before rest after after' : List (Fin slots)} {s s' : Fin slots}
    (hfillable : b.Fillable (before ++ rest)) (hs : ¬ b.Fillable (before ++ [s]))
    (hsplit : s :: after = rest ++ s' :: after') : rest = [] := by
  cases rest with
  | nil => rfl
  | cons x rest =>
    obtain ⟨rfl, -⟩ := List.cons.inj hsplit
    exact absurd (hfillable.mono (by simp)) hs

/-- The first slot that cannot be filled along with those before it is unique. -/
theorem eq_of_first_not_fillable {before before' after after' : List (Fin slots)} {s s' : Fin slots}
    (hsplit : before ++ s :: after = before' ++ s' :: after')
    (hbefore : b.Fillable before) (hbefore' : b.Fillable before')
    (hs : ¬ b.Fillable (before ++ [s])) (hs' : ¬ b.Fillable (before' ++ [s'])) :
    before = before' ∧ s = s' := by
  rcases List.append_eq_append_iff.mp hsplit with ⟨rest, rfl, hrest⟩ | ⟨rest, rfl, hrest⟩
  · obtain rfl := eq_nil_of_fillable hbefore' hs hrest
    exact ⟨by simp, (List.cons.inj hrest).1⟩
  · obtain rfl := eq_nil_of_fillable hbefore hs' hrest
    exact ⟨by simp, (List.cons.inj hrest).1.symm⟩

theorem Renumbers.proper (h : Renumbers e b b') (hb : b.Proper) : b'.Proper := by
  intro slot hslot
  rw [h.required] at hslot
  rw [roomy, h.unbounded]
  exact hb slot hslot

theorem Renumbers.exists_settle_ok (h : Renumbers e b b') (hb : b.Proper)
    (hq : b.settle = .ok q) : ∃ q', b'.settle = .ok q' := by
  obtain ⟨-, hfillable, -⟩ := settle_ok hb hq
  cases hq' : b'.settle with
  | ok q' => exact ⟨q', rfl⟩
  | error s' =>
    obtain ⟨before, after, hsplit, -, hnot, -⟩ := settle_error (h.proper hb) hq'
    rw [h.fillable_iff] at hnot
    refine absurd (hfillable.mono ?_) hnot
    simp [← h.requiredSlots_eq, hsplit]

/-- Boards that differ in the numbers of pairs only settle alike: they leave equally many pairs, or
the same slot cannot be filled while the same slots are. -/
theorem Renumbers.settle_cases (h : Renumbers e b b') (hb : b.Proper) :
    (∃ q q', b.settle = .ok q ∧ b'.settle = .ok q' ∧ q'.unplaced.length = q.unplaced.length) ∨
      ∃ s s', b.settle = .error s ∧ b'.settle = .error s' ∧ s'.slot = s.slot ∧
        ∀ slot : Fin slots,
          (s'.placement.holder.get slot).isSome = (s.placement.holder.get slot).isSome := by
  have hb' := h.proper hb
  cases hq : b.settle with
  | ok q =>
    obtain ⟨q', hq'⟩ := h.exists_settle_ok hb hq
    obtain ⟨hsound, -⟩ := settle_ok hb hq
    obtain ⟨hsound', -⟩ := settle_ok hb' hq'
    exact .inl ⟨q, q', rfl, hq',
      Nat.le_antisymm (h.unplaced_le hb' hsound hq') (h.symm.unplaced_le hb hsound' hq)⟩
  | error s =>
    obtain ⟨before, after, hsplit, hbefore, hnot, hheld⟩ := settle_error hb hq
    cases hq' : b'.settle with
    | ok q' =>
      obtain ⟨q, hok⟩ := h.symm.exists_settle_ok hb' hq'
      cases hq.symm.trans hok
    | error s' =>
      obtain ⟨before', after', hsplit', hbefore', hnot', hheld'⟩ := settle_error hb' hq'
      rw [h.fillable_iff] at hbefore' hnot'
      rw [h.requiredSlots_eq, hsplit] at hsplit'
      obtain ⟨rfl, hslot⟩ := eq_of_first_not_fillable hsplit' hbefore hbefore' hnot hnot'
      refine .inr ⟨s, s', rfl, rfl, hslot.symm, ?_⟩
      intro slot
      rw [Bool.eq_iff_iff, hheld, hheld']

/-- An owner has filled equally many slots if the same slots are filled. -/
theorem Renumbers.filled_eq (h : Renumbers e b b')
    (hheld : ∀ slot : Fin slots, (q'.holder.get slot).isSome = (q.holder.get slot).isSome)
    (owner : Nat) : b'.filled q' owner = b.filled q owner := by
  apply List.countP_congr
  intro slot _
  change ((b'.slot.get slot).owner == owner && (q'.holder.get slot).isSome) = true ↔
    ((b.slot.get slot).owner == owner && (q.holder.get slot).isSome) = true
  rw [h.owner, hheld]

end Board

end ShapeMatch
