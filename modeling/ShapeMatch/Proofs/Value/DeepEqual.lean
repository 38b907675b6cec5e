import Mathlib.Data.List.Forall2
import Mathlib.Data.List.Perm.Subperm
import ShapeMatch.Proofs.Value.Equality
import ShapeMatch.Proofs.Value.Fields

/-!
# Equality of documents

Sorted objects with the same keys have them at the same positions, so that comparing them by look-up
is comparing them field by field. Values whose objects are sorted are therefore equal when they are
alike, with equal numbers at the same places, and equality inherits the laws of the comparison of
numbers.

## Main definitions

* `Object.Related`: objects with the same keys and related values, field by field.
* `Value.Alike`: values that differ only in their numbers, which are related.
* `Value.Same`: well-formed values that are deeply equal.

## Main statements

* `Object.related_iff_get?`: fields of sorted objects are related by position or by look-up.
* `Value.eqBy_iff_alike`: well-formed values are equal when they are alike with equal numbers.
* `Value.Same.deepEqual_eq`: deep equality cannot tell equal values apart.
* `Value.deepEqual_is_equivalence`: the laws of deep equality.
-/

namespace ShapeMatch

/-! ## Lists item by item -/

/-- What related items have in common, all items of the second list have. -/
theorem forall_mem_of_forall₂ {α β : Type} {R : α → β → Prop} {P : β → Prop} {xs : List α}
    {ys : List β} (h : List.Forall₂ R xs ys) (hP : ∀ x ∈ xs, ∀ y, R x y → P y) :
    ∀ y ∈ ys, P y := by
  induction h with
  | nil => simp
  | cons hxy _ ih =>
    rw [List.forall_mem_cons] at hP ⊢
    exact ⟨hP.1 _ hxy, ih hP.2⟩

theorem forall₂_congr_of_mem {α β : Type} {R S : α → β → Prop} {xs : List α} {ys : List β}
    (h : ∀ x ∈ xs, ∀ y ∈ ys, (R x y ↔ S x y)) :
    List.Forall₂ R xs ys ↔ List.Forall₂ S xs ys := by
  rw [List.forall₂_iff_zip, List.forall₂_iff_zip]
  refine and_congr_right fun _ => forall₂_congr fun x y => forall_congr' fun hxy => ?_
  exact h x (List.of_mem_zip hxy).1 y (List.of_mem_zip hxy).2

/-- Items that are related can be exchanged when they are then related to the same items. -/
theorem forall₂_congr_left_of_mem {α β γ : Type} {R : α → β → Prop} {S : α → γ → Prop}
    {S' : β → γ → Prop} {xs : List α} {ys : List β} {zs : List γ} (hxy : List.Forall₂ R xs ys)
    (h : ∀ x ∈ xs, ∀ y ∈ ys, ∀ z ∈ zs, R x y → (S x z ↔ S' y z)) :
    List.Forall₂ S xs zs ↔ List.Forall₂ S' ys zs := by
  induction hxy generalizing zs with
  | nil => cases zs <;> simp
  | @cons x y xs ys head _ ih =>
    cases zs with
    | nil => simp
    | cons z zs =>
      rw [List.forall₂_cons, List.forall₂_cons, h x (by simp) y (by simp) z (by simp) head]
      refine and_congr_right fun _ => ih ?_
      intro x hx y hy z hz
      exact h x (by simp [hx]) y (by simp [hy]) z (by simp [hz])

/-! ## Objects field by field -/

namespace Object

/-- Objects with the same keys and related values, field by field. -/
def Related (R : Value → Value → Prop) (o p : Object) : Prop :=
  List.Forall₂ (fun f g => f.1 = g.1 ∧ R f.2 g.2) o p

variable {R : Value → Value → Prop} {o p : Object}

theorem Related.keys_eq (h : o.Related R p) : o.keys = p.keys := by
  induction h with
  | nil => rfl
  | cons hfield _ ih => exact congrArg₂ List.cons hfield.1 ih

theorem Related.length_eq (h : o.Related R p) : o.length = p.length := List.Forall₂.length_eq h

theorem Related.sorted (h : o.Related R p) (ho : o.Sorted) : p.Sorted := by
  have hkeys : o.keys.Pairwise (· < ·) := List.pairwise_map.2 ho
  rw [h.keys_eq] at hkeys
  exact List.pairwise_map.1 hkeys

theorem Related.symm {S : Value → Value → Prop} (h : o.Related R p)
    (hRS : ∀ v w, R v w → S w v) : p.Related S o :=
  List.Forall₂.flip (h.imp fun _ _ hfield => ⟨hfield.1.symm, hRS _ _ hfield.2⟩)

/-- Fields of the same name have related values. -/
theorem Related.get? (h : o.Related R p) (key : String) :
    Option.Rel R (o.get? key) (p.get? key) := by
  induction h with
  | nil => exact .none
  | @cons f g _ _ hfield _ ih =>
    obtain ⟨k, v⟩ := f
    obtain ⟨l, w⟩ := g
    obtain ⟨rfl, hvalue⟩ := hfield
    rw [get?_cons, get?_cons]
    split
    next => exact .some hvalue
    next => exact ih

theorem Related.exists_get? (h : o.Related R p) {key : String} {v : Value}
    (hget : o.get? key = some v) : ∃ w, p.get? key = some w ∧ R v w := by
  have hrel := h.get? key
  rw [hget] at hrel
  generalize p.get? key = found at hrel
  cases hrel with
  | some hvalue => exact ⟨_, rfl, hvalue⟩

/-- Fields chosen by their keys are related. -/
theorem Related.filter (h : o.Related R p) (keep : String → Bool) :
    Related R (o.filter fun field => keep field.1) (p.filter fun field => keep field.1) :=
  List.rel_filter (fun f g hfield => by simp only [hfield.1]) h

/-- Sorted objects with the same set of keys have the same keys in order. -/
theorem Sorted.keys_eq (ho : o.Sorted) (hp : p.Sorted) (h : ∀ key, key ∈ o.keys ↔ key ∈ p.keys) :
    o.keys = p.keys := by
  have hperm := (List.perm_ext_iff_of_nodup ho.nodup_keys hp.nodup_keys).mpr h
  refine hperm.eq_of_pairwise ?_ (List.pairwise_map.2 ho) (List.pairwise_map.2 hp)
  intro key _ _ _ hlt hgt
  exact absurd (String.lt_trans hlt hgt) (String.lt_irrefl key)

/-- Sorted objects are related field by field when every field of the first is related to the one
that the second has under its key, and the second has no other keys. -/
theorem related_iff_get? (ho : o.Sorted) (hp : p.Sorted) :
    o.Related R p ↔
      (∀ f ∈ o, ∃ w, p.get? f.1 = some w ∧ R f.2 w) ∧ p.keys ⊆ o.keys := by
  constructor
  · intro h
    refine ⟨fun f hf => h.exists_get? ((get?_eq_some_iff ho.nodup_keys).mpr hf), ?_⟩
    exact h.keys_eq ▸ List.Subset.refl _
  · rintro ⟨hfound, hkeys⟩
    have heq : o.keys = p.keys := by
      refine ho.keys_eq hp fun key => ⟨fun hkey => ?_, fun hkey => hkeys hkey⟩
      obtain ⟨f, hf, rfl⟩ := List.mem_map.mp hkey
      obtain ⟨w, hw, -⟩ := hfound f hf
      exact mem_keys_of_get? hw
    refine List.forall₂_iff_get.mpr ⟨by simpa [keys] using congrArg List.length heq, ?_⟩
    intro i hi hi'
    have hkey : (o.get ⟨i, hi⟩).1 = (p.get ⟨i, hi'⟩).1 := by
      simpa [keys] using List.getElem_of_eq heq (by simpa [keys] using hi)
    obtain ⟨w, hw, hvalue⟩ := hfound _ (List.get_mem o ⟨i, hi⟩)
    -- what the second object has under this key stands at this position
    have hget : p.get? (o.get ⟨i, hi⟩).1 = some (p.get ⟨i, hi'⟩).2 := by
      rw [get?_eq_some_iff hp.nodup_keys, hkey]
      exact List.get_mem p ⟨i, hi'⟩
    obtain rfl : w = (p.get ⟨i, hi'⟩).2 := Option.some.inj (hw.symm.trans hget)
    exact ⟨hkey, hvalue⟩

/-- If an object has as many keys as another and all of them are found there, there are no
others. -/
theorem keys_subset_of_length_eq (ho : o.keys.Nodup) (hlength : o.length = p.length)
    (hsub : o.keys ⊆ p.keys) : p.keys ⊆ o.keys :=
  ((ho.subperm hsub).perm_of_length_le (by simp [keys, hlength])).symm.subset

end Object

namespace Value

/-! ## Induction -/

/-- Induction on a value, with the claim for all items or all fields. -/
@[elab_as_elim] theorem inductOn {motive : Value → Prop} (v : Value) (null : motive .null)
    (bool : ∀ b, motive (.bool b)) (num : ∀ n, motive (.num n)) (str : ∀ s, motive (.str s))
    (arr : ∀ items, (∀ x ∈ items, motive x) → motive (.arr items))
    (obj : ∀ fields : Object, (∀ f ∈ fields, motive f.2) → motive (.obj fields)) : motive v :=
  @Value.rec motive (fun items => ∀ x ∈ items, motive x) (fun fields => ∀ f ∈ fields, motive f.2)
    (fun f => motive f.2) null bool num str arr obj
    nofun (fun _ _ head tail => List.forall_mem_cons.2 ⟨head, tail⟩)
    nofun (fun _ _ head tail => List.forall_mem_cons.2 ⟨head, tail⟩)
    (fun _ _ h => h) v

/-! ## Equality part by part -/

variable {numEq : Number → Number → Bool}

theorem eqBy_arr_iff {xs ys : List Value} :
    (arr xs).eqBy numEq (arr ys) = true ↔
      List.Forall₂ (fun x y => x.eqBy numEq y = true) xs ys := by
  rw [eqBy]
  induction xs generalizing ys with
  | nil => cases ys <;> simp [itemsEqBy]
  | cons x xs ih =>
    cases ys with
    | nil => simp [itemsEqBy]
    | cons y ys => rw [itemsEqBy, Bool.and_eq_true, ih, List.forall₂_cons]

theorem fieldsEqBy_iff {o p : Object} :
    fieldsEqBy numEq o p = true ↔
      ∀ f ∈ o, ∃ w, p.get? f.1 = some w ∧ f.2.eqBy numEq w = true := by
  induction o with
  | nil => simp [fieldsEqBy]
  | cons f rest ih =>
    obtain ⟨key, v⟩ := f
    rw [fieldsEqBy, Bool.and_eq_true, ih, List.forall_mem_cons]
    cases p.get? key <;> simp

/-- Sorted objects are equal when they have the same keys and equal values, field by field. -/
theorem eqBy_obj_iff {o p : Object} (ho : o.Sorted) (hp : p.Sorted) :
    (obj o).eqBy numEq (obj p) = true ↔ o.Related (fun v w => v.eqBy numEq w = true) p := by
  rw [eqBy, Bool.and_eq_true, beq_iff_eq, fieldsEqBy_iff]
  constructor
  · rintro ⟨hlength, hfound⟩
    have hsub : o.keys ⊆ p.keys := by
      intro key hkey
      obtain ⟨f, hf, rfl⟩ := List.mem_map.mp hkey
      obtain ⟨w, hw, -⟩ := hfound f hf
      exact Object.mem_keys_of_get? hw
    exact (Object.related_iff_get? ho hp).mpr
      ⟨hfound, Object.keys_subset_of_length_eq ho.nodup_keys hlength hsub⟩
  · intro h
    exact ⟨h.length_eq, ((Object.related_iff_get? ho hp).mp h).1⟩

/-! ## Values that are alike -/

mutual

/-- Values that differ only in their numbers, which are related. -/
inductive Alike (R : Number → Number → Prop) : Value → Value → Prop
  | null : Alike R .null .null
  | bool (b : Bool) : Alike R (.bool b) (.bool b)
  | num {m n : Number} (h : R m n) : Alike R (.num m) (.num n)
  | str (s : String) : Alike R (.str s) (.str s)
  | arr {xs ys : List Value} (h : ItemsAlike R xs ys) : Alike R (.arr xs) (.arr ys)
  | obj {o p : Object} (h : FieldsAlike R o p) : Alike R (.obj o) (.obj p)

/-- Items that are alike one by one. -/
inductive ItemsAlike (R : Number → Number → Prop) : List Value → List Value → Prop
  | nil : ItemsAlike R [] []
  | cons {v w : Value} {xs ys : List Value} (head : Alike R v w) (rest : ItemsAlike R xs ys) :
      ItemsAlike R (v :: xs) (w :: ys)

/-- Fields with the same keys and values that are alike, one by one. -/
inductive FieldsAlike (R : Number → Number → Prop) : Object → Object → Prop
  | nil : FieldsAlike R [] []
  | cons {key : String} {v w : Value} {o p : Object} (head : Alike R v w)
      (rest : FieldsAlike R o p) : FieldsAlike R ((key, v) :: o) ((key, w) :: p)

end

variable {R S T : Number → Number → Prop}

theorem itemsAlike_iff {xs ys : List Value} :
    ItemsAlike R xs ys ↔ List.Forall₂ (Alike R) xs ys := by
  constructor
  · intro h
    induction xs generalizing ys with
    | nil => cases h; exact .nil
    | cons x xs ih => cases h with | cons head rest => exact .cons head (ih rest)
  · intro h
    induction h with
    | nil => exact .nil
    | cons head _ ih => exact .cons head ih

theorem fieldsAlike_iff {o p : Object} : FieldsAlike R o p ↔ o.Related (Alike R) p := by
  constructor
  · intro h
    induction o generalizing p with
    | nil => cases h; exact .nil
    | cons f o ih => cases h with | cons head rest => exact .cons ⟨rfl, head⟩ (ih rest)
  · intro h
    induction h with
    | nil => exact .nil
    | @cons f g _ _ hfield _ ih =>
      obtain ⟨k, v⟩ := f
      obtain ⟨l, w⟩ := g
      obtain ⟨rfl, head⟩ := hfield
      exact .cons head ih

mutual

theorem Alike.refl (hR : ∀ n, R n n) : ∀ v : Value, v.Alike R v
  | .null => .null
  | .bool b => .bool b
  | .num n => .num (hR n)
  | .str s => .str s
  | .arr items => .arr (.refl hR items)
  | .obj fields => .obj (.refl hR fields)

theorem ItemsAlike.refl (hR : ∀ n, R n n) : ∀ items, ItemsAlike R items items
  | [] => .nil
  | v :: rest => .cons (.refl hR v) (.refl hR rest)

theorem FieldsAlike.refl (hR : ∀ n, R n n) : ∀ fields : List (String × Value),
    FieldsAlike R fields fields
  | [] => .nil
  | (_, v) :: rest => .cons (.refl hR v) (.refl hR rest)

end

mutual

/-- What is alike is alike the other way round, if related numbers are. -/
theorem Alike.symm (hRS : ∀ m n, R m n → S n m) : ∀ {v w : Value}, v.Alike R w → w.Alike S v
  | _, _, .null => .null
  | _, _, .bool b => .bool b
  | _, _, .num h => .num (hRS _ _ h)
  | _, _, .str s => .str s
  | _, _, .arr h => .arr (h.symm hRS)
  | _, _, .obj h => .obj (h.symm hRS)

theorem ItemsAlike.symm (hRS : ∀ m n, R m n → S n m) :
    ∀ {xs ys : List Value}, ItemsAlike R xs ys → ItemsAlike S ys xs
  | _, _, .nil => .nil
  | _, _, .cons head rest => .cons (head.symm hRS) (rest.symm hRS)

theorem FieldsAlike.symm (hRS : ∀ m n, R m n → S n m) :
    ∀ {o p : Object}, FieldsAlike R o p → FieldsAlike S p o
  | _, _, .nil => .nil
  | _, _, .cons head rest => .cons (head.symm hRS) (rest.symm hRS)

end

mutual

theorem Alike.trans (hRST : ∀ l m n, R l m → S m n → T l n) :
    ∀ {u v w : Value}, u.Alike R v → v.Alike S w → u.Alike T w
  | _, _, _, .null, .null => .null
  | _, _, _, .bool b, .bool _ => .bool b
  | _, _, _, .num h, .num h' => .num (hRST _ _ _ h h')
  | _, _, _, .str s, .str _ => .str s
  | _, _, _, .arr h, .arr h' => .arr (h.trans hRST h')
  | _, _, _, .obj h, .obj h' => .obj (h.trans hRST h')

theorem ItemsAlike.trans (hRST : ∀ l m n, R l m → S m n → T l n) :
    ∀ {xs ys zs : List Value}, ItemsAlike R xs ys → ItemsAlike S ys zs → ItemsAlike T xs zs
  | _, _, _, .nil, .nil => .nil
  | _, _, _, .cons head rest, .cons head' rest' =>
    .cons (head.trans hRST head') (rest.trans hRST rest')

theorem FieldsAlike.trans (hRST : ∀ l m n, R l m → S m n → T l n) :
    ∀ {o p q : Object}, FieldsAlike R o p → FieldsAlike S p q → FieldsAlike T o q
  | _, _, _, .nil, .nil => .nil
  | _, _, _, .cons head rest, .cons head' rest' =>
    .cons (head.trans hRST head') (rest.trans hRST rest')

end

mutual

/-- What is alike has the same keys, so that objects stay sorted. -/
theorem Alike.wellFormed : ∀ {v w : Value}, v.Alike R w → v.WellFormed → w.WellFormed
  | _, _, .null, h | _, _, .bool _, h | _, _, .str _, h => h
  | _, _, .num _, _ => by simp only [WellFormed]
  | _, _, .arr hitems, h => by
    rw [WellFormed] at h ⊢
    exact hitems.wellFormedItems h
  | _, _, .obj hfields, h => by
    rw [WellFormed] at h ⊢
    exact ⟨(fieldsAlike_iff.mp hfields).sorted h.1, hfields.wellFormedFields h.2⟩

theorem ItemsAlike.wellFormedItems : ∀ {xs ys : List Value}, ItemsAlike R xs ys →
    WellFormedItems xs → WellFormedItems ys
  | _, _, .nil, h => h
  | _, _, .cons head rest, h => by
    rw [WellFormedItems] at h ⊢
    exact ⟨head.wellFormed h.1, rest.wellFormedItems h.2⟩

theorem FieldsAlike.wellFormedFields : ∀ {o p : Object}, FieldsAlike R o p →
    WellFormedFields o → WellFormedFields p
  | _, _, .nil, h => h
  | _, _, .cons head rest, h => by
    rw [WellFormedFields] at h ⊢
    exact ⟨head.wellFormed h.1, rest.wellFormedFields h.2⟩

end

theorem Alike.mono {v w : Value} (h : v.Alike R w) (hRS : ∀ m n, R m n → S m n) :
    v.Alike S w := by
  have hself : w.Alike Eq w := .refl (fun _ => rfl) w
  exact h.trans (fun l m n hlm hmn => hmn ▸ hRS l m hlm) hself

theorem alike_arr_iff {xs ys : List Value} :
    (arr xs).Alike R (arr ys) ↔ List.Forall₂ (Alike R) xs ys := by
  rw [← itemsAlike_iff]
  exact ⟨fun h => by cases h; assumption, .arr⟩

theorem alike_obj_iff {o p : Object} :
    (obj o).Alike R (obj p) ↔ o.Related (Alike R) p := by
  rw [← fieldsAlike_iff]
  exact ⟨fun h => by cases h; assumption, .obj⟩

/-- Well-formed values are equal when they are alike with equal numbers. -/
theorem eqBy_iff_alike {v w : Value} (hv : v.WellFormed) (hw : w.WellFormed) :
    v.eqBy numEq w = true ↔ v.Alike (fun m n => numEq m n = true) w := by
  induction v using inductOn generalizing w with
  | null =>
    cases w with
    | null => exact iff_of_true rfl .null
    | _ => exact iff_of_false (by simp [eqBy]) (by rintro ⟨⟩)
  | bool a =>
    cases w with
    | bool b =>
      rw [eqBy, beq_iff_eq]
      exact ⟨fun h => h ▸ .bool a, fun h => by cases h; rfl⟩
    | _ => exact iff_of_false (by simp [eqBy]) (by rintro ⟨⟩)
  | num m =>
    cases w with
    | num n =>
      rw [eqBy]
      exact ⟨fun h => .num h, fun h => by cases h; assumption⟩
    | _ => exact iff_of_false (by simp [eqBy]) (by rintro ⟨⟩)
  | str s =>
    cases w with
    | str t =>
      rw [eqBy, beq_iff_eq]
      exact ⟨fun h => h ▸ .str s, fun h => by cases h; rfl⟩
    | _ => exact iff_of_false (by simp [eqBy]) (by rintro ⟨⟩)
  | arr xs ih =>
    cases w with
    | arr ys =>
      rw [wellFormed_arr_iff] at hv hw
      rw [eqBy_arr_iff, alike_arr_iff]
      exact forall₂_congr_of_mem fun x hx y hy => ih x hx (hv x hx) (hw y hy)
    | _ => exact iff_of_false (by simp [eqBy]) (by rintro ⟨⟩)
  | obj o ih =>
    cases w with
    | obj p =>
      rw [wellFormed_obj_iff] at hv hw
      rw [eqBy_obj_iff hv.1 hw.1, alike_obj_iff]
      exact forall₂_congr_of_mem fun f hf g hg =>
        and_congr_right fun _ => ih f hf (hv.2 f hf) (hw.2 g hg)
    | _ => exact iff_of_false (by simp [eqBy]) (by rintro ⟨⟩)

/-! ## Deeply equal values -/

/-- Well-formed values that are deeply equal. -/
structure Same (v w : Value) : Prop where
  left : v.WellFormed
  right : w.WellFormed
  alike : v.Alike (fun m n => m.looseEq n = true) w

theorem same_iff {v w : Value} :
    v.Same w ↔ v.WellFormed ∧ w.WellFormed ∧ v.deepEqual w = true := by
  constructor
  · rintro ⟨hv, hw, h⟩
    exact ⟨hv, hw, (eqBy_iff_alike hv hw).mpr h⟩
  · rintro ⟨hv, hw, h⟩
    exact ⟨hv, hw, (eqBy_iff_alike hv hw).mp h⟩

namespace Same

variable {v v' w w' : Value}

theorem refl (hv : v.WellFormed) : v.Same v := ⟨hv, hv, .refl Number.looseEq_self v⟩

theorem symm (h : v.Same w) : w.Same v :=
  ⟨h.right, h.left, h.alike.symm fun _ _ => Number.looseEq_symm⟩

theorem trans (h : v.Same v') (h' : v'.Same w) : v.Same w := by
  refine ⟨h.left, h'.right, Alike.trans ?_ h.alike h'.alike⟩
  exact fun _ _ _ => Number.looseEq_trans

/-- Deep equality cannot tell equal values apart. -/
theorem deepEqual_eq (hv : v.Same v') (hw : w.Same w') : v.deepEqual w = v'.deepEqual w' := by
  have hsame : ∀ {a a' b b' : Value}, a.Same a' → b.Same b' →
      a.deepEqual b = true → a'.deepEqual b' = true := by
    intro a a' b b' ha hb h
    have hab : a.Same b := same_iff.mpr ⟨ha.left, hb.left, h⟩
    exact (same_iff.mp ((ha.symm.trans hab).trans hb)).2.2
  exact Bool.eq_iff_iff.mpr ⟨hsame hv hw, hsame hv.symm hw.symm⟩

/-- What equals an array is an array of equal items. -/
theorem exists_items {xs : List Value} (h : (arr xs).Same w) :
    ∃ ys, w = .arr ys ∧ List.Forall₂ Same xs ys := by
  obtain ⟨hxs, hw, halike⟩ := h
  cases halike with
  | arr hitems =>
    rw [wellFormed_arr_iff] at hxs hw
    refine ⟨_, rfl, (forall₂_congr_of_mem ?_).mp (itemsAlike_iff.mp hitems)⟩
    exact fun x hx y hy => ⟨fun hxy => ⟨hxs x hx, hw y hy, hxy⟩, Same.alike⟩

/-- What equals an object is an object with equal fields. -/
theorem exists_fields {o : Object} (h : (obj o).Same w) :
    ∃ p, w = .obj p ∧ o.Related Same p := by
  obtain ⟨ho, hw, halike⟩ := h
  cases halike with
  | obj hfields =>
    rw [wellFormed_obj_iff] at ho hw
    refine ⟨_, rfl, (forall₂_congr_of_mem ?_).mp (fieldsAlike_iff.mp hfields)⟩
    exact fun f hf g hg => and_congr_right fun _ =>
      ⟨fun hfg => ⟨ho.2 f hf, hw.2 g hg, hfg⟩, Same.alike⟩

end Same

/-! ## Laws -/

variable {a b c : Value}

theorem deepEqual_comm (ha : a.WellFormed) (hb : b.WellFormed) :
    a.deepEqual b = b.deepEqual a := by
  have hsymm : ∀ {v w : Value}, v.WellFormed → w.WellFormed → v.deepEqual w = true →
      w.deepEqual v = true :=
    fun hv hw h => (same_iff.mp (same_iff.mpr ⟨hv, hw, h⟩).symm).2.2
  exact Bool.eq_iff_iff.mpr ⟨hsymm ha hb, hsymm hb ha⟩

theorem deepEqual_of_strictEq (ha : a.WellFormed) (hb : b.WellFormed) (h : a.strictEq b = true) :
    a.deepEqual b = true := by
  rw [strictEq, eqBy_iff_alike ha hb] at h
  exact (eqBy_iff_alike ha hb).mpr (h.mono fun _ _ => Number.looseEq_of_strictEq)

/-- Deep equality is an equivalence of documents, and it is implied by the equality that tells
integers from doubles. -/
theorem deepEqual_is_equivalence (ha : a.WellFormed) (hb : b.WellFormed) (hc : c.WellFormed) :
    a.deepEqual a = true ∧ a.deepEqual b = b.deepEqual a ∧
      (a.deepEqual b = true → b.deepEqual c = true → a.deepEqual c = true) ∧
      (a.strictEq b = true → a.deepEqual b = true) := by
  refine ⟨(same_iff.mp (.refl ha)).2.2, deepEqual_comm ha hb, ?_, deepEqual_of_strictEq ha hb⟩
  intro hab hbc
  have hsame : a.Same b := same_iff.mpr ⟨ha, hb, hab⟩
  exact (same_iff.mp (hsame.trans (same_iff.mpr ⟨hb, hc, hbc⟩))).2.2

/-- An integer past 53 bits, the double next to it and the integer that this is, beside zeros of
three kinds. -/
theorem deepEqual_of_three_representations :
    let a : Value :=
      .obj [("n", .num (.int 9007199254740993)), ("z", .arr [.num (.int 0), .obj []])]
    let b : Value :=
      .obj [("n", .num (.float ⟨false, ⟨0x4340000000000000, by decide⟩⟩)),
        ("z", .arr [.num (.float ⟨true, ⟨0, by decide⟩⟩), .obj []])]
    let c : Value :=
      .obj [("n", .num (.int 9007199254740992)),
        ("z", .arr [.num (.float ⟨false, ⟨0, by decide⟩⟩), .obj []])]
    (a.WellFormed ∧ b.WellFormed ∧ c.WellFormed) ∧ a.deepEqual b = true ∧ b.deepEqual c = true ∧
      a.deepEqual c = true ∧ c.deepEqual a = true ∧ a.strictEq b = false ∧
        (a.strictEq a = true ∧ a.deepEqual a = true) := by
  intro a b c
  have ha : a.WellFormed := by decide +kernel
  have hb : b.WellFormed := by decide +kernel
  have hc : c.WellFormed := by decide +kernel
  have hab : a.deepEqual b = true := by decide +kernel
  have hbc : b.deepEqual c = true := by decide +kernel
  have hself : a.strictEq a = true := by decide +kernel
  obtain ⟨-, -, htrans, -⟩ := deepEqual_is_equivalence ha hb hc
  obtain ⟨-, hsymm, -, -⟩ := deepEqual_is_equivalence ha hc hb
  obtain ⟨-, -, -, hstrict⟩ := deepEqual_is_equivalence ha ha ha
  have hac := htrans hab hbc
  exact ⟨⟨ha, hb, hc⟩, hab, hbc, hac, hsymm.symm.trans hac, by decide +kernel, hself, hstrict hself⟩

end Value

end ShapeMatch
