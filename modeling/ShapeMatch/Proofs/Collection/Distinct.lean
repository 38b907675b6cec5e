import Mathlib.Data.List.Induction
import Mathlib.Data.List.Sort
import ShapeMatch.Collection.Distinct

/-!
# First occurrences under a comparison

The comparison may be any relation of an earlier item to a later one. What is kept of a list grows
with the list: one more item is kept unless some kept item is related to it, and what was kept
before stays. Whether an item is kept thus depends on the items kept before it alone, so that only
one choice of positions keeps the items this way, and nothing of what is kept would be dropped.

A dropped item is represented by a kept one that is related to it. If the comparison is
transitive, the distinct items of a list may therefore stand for all of them in a test of
inclusion.

## Main definitions

* `IsSelection`: a choice of positions that keeps an item exactly when no earlier kept item is
  related to it.
* `distinctPositions`: the positions of the kept items.

## Main statements

* `distinctBy_concat`: what one more item does.
* `IsSelection.unique`: there is at most one selection.
* `distinctBy_is_unique_selection`: the kept items are the one selection, without related items.
* `isSubset_iff_of_trans`: under a transitive comparison, inclusion is inclusion of all items.
-/

namespace ShapeMatch

variable {α β : Type _} {eq : α → α → Bool} {items : List α}

/-! ## Items in order -/

theorem distinctAfter_concat (eq : α → α → Bool) (kept items : List α) (x : α) :
    distinctAfter eq kept (items ++ [x]) =
      if (kept ++ distinctAfter eq kept items).any (eq · x) then distinctAfter eq kept items
      else distinctAfter eq kept items ++ [x] := by
  induction items generalizing kept with
  | nil => simp [distinctAfter]
  | cons y rest ih =>
    rw [List.cons_append, distinctAfter, distinctAfter]
    split
    next => exact ih kept
    next => rw [ih, List.append_assoc, List.singleton_append, apply_ite (y :: ·), List.cons_append]

/-- One more item is kept unless a kept item is related to it. -/
theorem distinctBy_concat (eq : α → α → Bool) (items : List α) (x : α) :
    distinctBy eq (items ++ [x]) =
      if (distinctBy eq items).any (eq · x) then distinctBy eq items
      else distinctBy eq items ++ [x] :=
  distinctAfter_concat eq [] items x

theorem distinctBy_sublist (eq : α → α → Bool) (items : List α) :
    (distinctBy eq items).Sublist items := by
  induction items using List.reverseRecOn with
  | nil => exact .slnil
  | append_singleton items x ih =>
    rw [distinctBy_concat]
    split
    next => exact ih.trans (List.sublist_append_left items [x])
    next => exact ih.append (.refl [x])

/-- Items of another kind are compared through what they stand for. -/
theorem distinctBy_map (f : β → α) (items : List β) :
    distinctBy eq (items.map f) = (distinctBy (fun x y => eq (f x) (f y)) items).map f := by
  induction items using List.reverseRecOn with
  | nil => rfl
  | append_singleton items x ih =>
    rw [List.map_append, List.map_singleton, distinctBy_concat, distinctBy_concat, ih,
      List.any_map, apply_ite (List.map f), List.map_append, List.map_singleton]
    rfl

/-- No kept item is related to a later one. -/
theorem pairwise_distinctBy (eq : α → α → Bool) (items : List α) :
    (distinctBy eq items).Pairwise fun y x => eq y x = false := by
  induction items using List.reverseRecOn with
  | nil => exact .nil
  | append_singleton items x ih =>
    rw [distinctBy_concat]
    split
    next => exact ih
    next hnone =>
      refine List.pairwise_append.mpr ⟨ih, List.pairwise_singleton _ x, ?_⟩
      simpa using hnone

/-- Where no item is related to a later one, nothing is dropped. -/
theorem distinctBy_eq_self (h : items.Pairwise fun y x => eq y x = false) :
    distinctBy eq items = items := by
  induction items using List.reverseRecOn with
  | nil => rfl
  | append_singleton items x ih =>
    obtain ⟨hitems, -, hx⟩ := List.pairwise_append.mp h
    have hnone : (items.any (eq · x)) = false := by simpa using hx
    rw [distinctBy_concat, ih hitems, hnone, if_neg Bool.false_ne_true]

/-- What is dropped is represented by a kept item that is related to it. -/
theorem exists_mem_distinctBy (eq : α → α → Bool) {x : α} (hx : x ∈ items) :
    x ∈ distinctBy eq items ∨ ∃ y ∈ distinctBy eq items, eq y x = true := by
  induction items using List.reverseRecOn with
  | nil => cases hx
  | append_singleton items z ih =>
    rw [distinctBy_concat]
    rcases List.mem_append.mp hx with hx | hx
    · split
      next => exact ih hx
      next =>
        refine (ih hx).imp (List.mem_append_left [z]) ?_
        rintro ⟨y, hy, hyx⟩
        exact ⟨y, List.mem_append_left [z] hy, hyx⟩
    · obtain rfl := List.mem_singleton.mp hx
      split
      next hany => exact .inr (List.any_eq_true.mp hany)
      next => exact .inl (List.mem_append_right _ hx)

/-! ## Positions -/

/-- Positions of a list, in order, that keep an item exactly when no earlier kept item is related
to it. -/
structure IsSelection (eq : α → α → Bool) (items : List α) (kept : List (Fin items.length)) :
    Prop where
  increasing : kept.Pairwise (· < ·)
  mem_iff : ∀ i, i ∈ kept ↔ ∀ j ∈ kept, j < i → eq (items.get j) (items.get i) = false

namespace IsSelection

variable {kept kept' : List (Fin items.length)}

/-- A position that is left out comes after a kept one whose item is related to its item. -/
theorem exists_of_notMem (h : IsSelection eq items kept) {i : Fin items.length} (hi : i ∉ kept) :
    ∃ j ∈ kept, j < i ∧ eq (items.get j) (items.get i) = true := by
  simpa using mt (h.mem_iff i).mpr hi

/-- There is at most one selection: whether a position belongs to it depends on the earlier ones
alone. -/
theorem unique (h : IsSelection eq items kept) (h' : IsSelection eq items kept') :
    kept = kept' := by
  have hmem : ∀ i, i ∈ kept ↔ i ∈ kept' := by
    intro i
    induction i using WellFoundedLT.induction with
    | ind i ih =>
      rw [h.mem_iff, h'.mem_iff]
      exact ⟨fun hall j hj hlt => hall j ((ih j hlt).mpr hj) hlt,
        fun hall j hj hlt => hall j ((ih j hlt).mp hj) hlt⟩
  exact h.increasing.eq_of_mem_iff h'.increasing hmem

end IsSelection

/-- In an increasing list, what is kept is known from what is kept before it. -/
theorem mem_distinctBy_iff {n : Nat} {eq : Fin n → Fin n → Bool} {is : List (Fin n)}
    (his : is.Pairwise (· < ·)) {i : Fin n} (hi : i ∈ is) :
    i ∈ distinctBy eq is ↔ ∀ j ∈ distinctBy eq is, j < i → eq j i = false := by
  induction is using List.reverseRecOn with
  | nil => cases hi
  | append_singleton is k ih =>
    obtain ⟨his, -, hk⟩ := List.pairwise_append.mp his
    have hlast : ∀ j ∈ distinctBy eq is, j < k :=
      fun j hj => hk j ((distinctBy_sublist eq is).subset hj) k (List.mem_singleton_self k)
    rw [distinctBy_concat]
    rcases List.mem_append.mp hi with hi | hi
    · -- the new position comes later and decides nothing about this one
      have hik : i < k := hk i hi k (List.mem_singleton_self k)
      have hne : i ≠ k := Fin.ne_of_lt hik
      split
      next => exact ih his hi
      next =>
        rw [List.mem_append, List.mem_singleton, or_iff_left hne, ih his hi]
        simp [or_imp, forall_and, Fin.not_lt.mpr (Fin.le_of_lt hik)]
    · obtain rfl := List.mem_singleton.mp hi
      split
      next hany =>
        obtain ⟨j, hj, hji⟩ := List.any_eq_true.mp hany
        refine iff_of_false (fun hmem => Fin.lt_irrefl i (hlast i hmem)) fun hall => ?_
        rw [hall j hj (hlast j hj)] at hji
        cases hji
      next hnone =>
        refine iff_of_true (List.mem_append_right _ (List.mem_singleton_self i)) ?_
        intro j hj hlt
        rcases List.mem_append.mp hj with hj | hj
        · simpa using fun hji => hnone (List.any_eq_true.mpr ⟨j, hj, hji⟩)
        · exact absurd hlt (List.mem_singleton.mp hj ▸ Fin.lt_irrefl i)

/-- The positions of the items that are kept. -/
def distinctPositions (eq : α → α → Bool) (items : List α) : List (Fin items.length) :=
  distinctBy (fun i j => eq (items.get i) (items.get j)) (List.finRange items.length)

theorem map_get_distinctPositions (eq : α → α → Bool) (items : List α) :
    (distinctPositions eq items).map items.get = distinctBy eq items := by
  rw [distinctPositions, ← distinctBy_map, List.map_get_finRange]

theorem isSelection_distinctPositions (eq : α → α → Bool) (items : List α) :
    IsSelection eq items (distinctPositions eq items) where
  increasing := (List.pairwise_lt_finRange _).sublist (distinctBy_sublist _ _)
  mem_iff i := mem_distinctBy_iff (List.pairwise_lt_finRange _) (List.mem_finRange i)

/-- What is kept of a list are the items at the one selection of its positions: no kept item is
related to a later one, each dropped item comes after a kept one that is related to it, and nothing
of what is kept would be dropped. -/
theorem distinctBy_is_unique_selection (eq : α → α → Bool) (items : List α) :
    ∃ kept : List (Fin items.length),
      (∀ selection, IsSelection eq items selection ↔ selection = kept) ∧
        distinctBy eq items = kept.map items.get ∧
        (∀ i ∈ kept, ∀ j ∈ kept, i < j → eq (items.get i) (items.get j) = false) ∧
        (∀ i, i ∉ kept → ∃ j ∈ kept, j < i ∧ eq (items.get j) (items.get i) = true) ∧
        distinctBy eq (distinctBy eq items) = distinctBy eq items := by
  have hkept := isSelection_distinctPositions eq items
  refine ⟨distinctPositions eq items, ?_, (map_get_distinctPositions eq items).symm, ?_, ?_, ?_⟩
  · intro selection
    exact ⟨fun h => h.unique hkept, fun h => h ▸ hkept⟩
  · intro i hi j hj hlt
    exact (hkept.mem_iff j).mp hj i hi hlt
  · intro i hi
    exact hkept.exists_of_notMem hi
  · exact distinctBy_eq_self (pairwise_distinctBy eq items)

/-- Only kept items count: two comes right after one and is dropped, and three is kept. -/
example : distinctBy (fun y x : Nat => y + 1 == x) [1, 2, 3] = [1, 3] := by decide

/-! ## Inclusion -/

/-- Under a transitive comparison the distinct items of a list stand for all of them. -/
theorem isSubset_iff_of_trans {a b : List α}
    (htrans : ∀ z ∈ b, ∀ y ∈ a, ∀ x ∈ a, eq z y = true → eq y x = true → eq z x = true) :
    isSubset eq a b = true ↔ ∀ x ∈ a, ∃ z ∈ b, eq z x = true := by
  have hsub : distinctBy eq a ⊆ a := (distinctBy_sublist eq a).subset
  simp only [isSubset, List.all_eq_true, List.any_eq_true]
  constructor
  · intro h x hx
    rcases exists_mem_distinctBy eq hx with hkept | ⟨y, hy, hyx⟩
    · exact h x hkept
    · obtain ⟨z, hz, hzy⟩ := h y hy
      exact ⟨z, hz, htrans z hz y (hsub hy) x hx hzy hyx⟩
  · exact fun h x hx => h x (hsub hx)

/-- Under a lawful equality, inclusion is inclusion of the elements. -/
theorem isSubset_beq_iff [BEq α] [LawfulBEq α] {a b : List α} :
    isSubset (· == ·) a b = true ↔ a ⊆ b := by
  rw [isSubset_iff_of_trans fun z _ y _ x _ hzy hyx => beq_iff_eq.mpr (by simp_all)]
  simp [List.subset_def]

end ShapeMatch
