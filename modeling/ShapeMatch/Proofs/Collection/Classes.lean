import Mathlib.Data.List.Basic
import Mathlib.Data.List.Perm.Basic

/-!
# Classes of a list

A list falls into classes under a comparison: its first item with all later ones that are the same
as it, and then the classes of the others. No item is lost or doubled. Under an equivalence, items
are in one class exactly when they are the same, so that comparing with one item of a class is
comparing with all of them.

## Main definitions

* `classesBy`: the classes of a list.
* `IsClasses`: what makes them canonical.

## Main statements

* `isClasses_classesBy`: the classes under an equivalence are canonical.
-/

namespace ShapeMatch

variable {α β : Type} {same : α → α → Bool} {x y : α} {xs c : List α}

/-- The items that are not the same as a given one. -/
def apartFrom (same : α → α → Bool) (x : α) (xs : List α) : List α := xs.filter (!same x ·)

theorem apartFrom_sublist : (apartFrom same x xs).Sublist xs := List.filter_sublist

theorem mem_apartFrom : y ∈ apartFrom same x xs ↔ y ∈ xs ∧ same x y = false := by
  simp [apartFrom]

theorem apartFrom_map (f : β → α) (x : β) (xs : List β) :
    apartFrom same (f x) (xs.map f) = (apartFrom (fun x y => same (f x) (f y)) x xs).map f := by
  rw [apartFrom, List.filter_map]
  rfl

/-- The classes of a list under a comparison: the first item with all later ones that are the same
as it, and then the classes of the others. -/
def classesBy (same : α → α → Bool) : List α → List (List α)
  | [] => []
  | x :: rest => (x :: rest.filter (same x)) :: classesBy same (apartFrom same x rest)
termination_by xs => xs.length
decreasing_by exact Nat.lt_succ_of_le apartFrom_sublist.length_le

theorem classesBy_map (f : β → α) (xs : List β) :
    classesBy same (xs.map f) =
      (classesBy (fun x y => same (f x) (f y)) xs).map (List.map f) := by
  fun_induction classesBy (fun x y => same (f x) (f y)) xs with
  | case1 => rw [List.map_nil, classesBy, List.map_nil]
  | case2 x rest ih =>
    rw [List.map_cons, classesBy, apartFrom_map, ih, List.filter_map]
    rfl

/-! ## Under any comparison -/

theorem flatten_classesBy_perm (same : α → α → Bool) (xs : List α) :
    (classesBy same xs).flatten.Perm xs := by
  fun_induction classesBy same xs with
  | case1 => rfl
  | case2 x rest ih =>
    rw [List.flatten_cons, List.cons_append]
    exact ((ih.append_left _).trans (List.filter_append_perm _ rest)).cons x

theorem sublist_of_mem_classesBy (hc : c ∈ classesBy same xs) : c.Sublist xs := by
  fun_induction classesBy same xs with
  | case1 => cases hc
  | case2 x rest ih =>
    rcases List.mem_cons.mp hc with rfl | hc
    · exact List.filter_sublist.cons_cons x
    · exact ((ih hc).trans apartFrom_sublist).cons x

/-- The items of a class are the same as its first. -/
theorem exists_cons_of_mem_classesBy (hc : c ∈ classesBy same xs) :
    ∃ x others, c = x :: others ∧ ∀ y ∈ others, same x y = true := by
  fun_induction classesBy same xs with
  | case1 => cases hc
  | case2 x rest ih =>
    rcases List.mem_cons.mp hc with rfl | hc
    · exact ⟨x, rest.filter (same x), rfl, fun y hy => (List.mem_filter.mp hy).2⟩
    · exact ih hc

/-- Classes come in the order of their first items. -/
theorem heads_classesBy_sublist (same : α → α → Bool) (xs : List α) :
    ((classesBy same xs).filterMap List.head?).Sublist xs := by
  fun_induction classesBy same xs with
  | case1 => simp
  | case2 x rest ih => exact (ih.trans apartFrom_sublist).cons_cons x

/-! ## Under an equivalence -/

/-- Classes are canonical when none is empty, together they hold each item once, each keeps the
order of the items, they come in the order of their first items, and items are in one class exactly
when they are the same. -/
structure IsClasses (same : α → α → Bool) (xs : List α) (classes : List (List α)) : Prop where
  ne_nil : ∀ c ∈ classes, c ≠ []
  perm : classes.flatten.Perm xs
  sublist : ∀ c ∈ classes, c.Sublist xs
  heads : (classes.filterMap List.head?).Sublist xs
  mem_iff : ∀ c ∈ classes, ∀ x ∈ c, ∀ y ∈ xs, y ∈ c ↔ same x y = true

/-- The first class holds all that is the same as one of its items. -/
theorem mem_first_class_iff (h : Equivalence fun x y => same x y = true) {rest : List α}
    (hx : x ∈ y :: rest.filter (same y)) {z : α} (hz : z ∈ y :: rest) :
    z ∈ y :: rest.filter (same y) ↔ same x z = true := by
  have hfirst : ∀ w ∈ y :: rest, w ∈ y :: rest.filter (same y) ↔ same y w = true := by
    intro w hw
    have hself : same y y = true := h.refl y
    rcases List.mem_cons.mp hw with rfl | hw
    · simp [hself]
    · by_cases hwy : w = y <;> simp [hw, hwy, hself]
  have hyx : same y x = true :=
    (hfirst x ((List.filter_sublist.cons_cons y).subset hx)).mp hx
  rw [hfirst z hz]
  exact ⟨h.trans (h.symm hyx), h.trans hyx⟩

theorem mem_iff_of_mem_classesBy (h : Equivalence fun x y => same x y = true)
    (hc : c ∈ classesBy same xs) (hx : x ∈ c) (hy : y ∈ xs) : y ∈ c ↔ same x y = true := by
  fun_induction classesBy same xs with
  | case1 => cases hc
  | case2 z rest ih =>
    rcases List.mem_cons.mp hc with rfl | hc
    · exact mem_first_class_iff h hx hy
    · have hapart : ∀ w ∈ c, ¬ same z w = true := by
        intro w hw
        simpa using (mem_apartFrom.mp ((sublist_of_mem_classesBy hc).subset hw)).2
      by_cases hzy : same z y = true
      · -- what is the same as the first item is in no later class
        exact iff_of_false (fun hyc => hapart y hyc hzy) fun hxy =>
          hapart x hx (h.trans hzy (h.symm hxy))
      · have hyrest : y ∈ rest := by
          refine (List.mem_cons.mp hy).resolve_left ?_
          rintro rfl
          exact hzy (h.refl y)
        exact ih hc (mem_apartFrom.mpr ⟨hyrest, by simpa using hzy⟩)

/-- The classes of a list under an equivalence are canonical. -/
theorem isClasses_classesBy (h : Equivalence fun x y => same x y = true) (xs : List α) :
    IsClasses same xs (classesBy same xs) where
  ne_nil c hc := by
    obtain ⟨x, others, rfl, -⟩ := exists_cons_of_mem_classesBy hc
    simp
  perm := flatten_classesBy_perm same xs
  sublist _ hc := sublist_of_mem_classesBy hc
  heads := heads_classesBy_sublist same xs
  mem_iff _ hc _ hx _ hy := mem_iff_of_mem_classesBy h hc hx hy

end ShapeMatch
