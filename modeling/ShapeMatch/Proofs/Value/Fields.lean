import Mathlib.Data.List.Nodup
import Mathlib.Data.List.Perm.Basic
import ShapeMatch.Value

/-!
# Fields of objects

Look-up in objects whose keys do not repeat, and building an object from fields.

## Main definitions

* `Value.WellFormed`: in every object within a value, keys increase.
* `Object.rename`: the fields of an object under other keys.

## Main statements

* `Object.get?_eq_some_iff`: look-up is membership.
* `Object.ofList_perm`, `Object.sorted_ofList`: an object holds the fields it is built from, sorted.
* `Object.get?_ofList_eq_some_iff`, `Object.length_ofList_eq_iff`: what remains of fields of one
  key.
* `Object.Sorted.ofList_eq`: a sorted object is built from its fields in any order.
-/

namespace ShapeMatch

/-- If no two items of a list are related, related positions are equal. -/
theorem eq_of_pairwise_not {α : Type} {R : α → α → Prop} {items : List α}
    (hsymm : ∀ a b, R a b → R b a) (h : items.Pairwise fun a b => ¬ R a b)
    {i j : Fin items.length} (hR : R (items.get i) (items.get j)) : i = j := by
  have hnot := List.pairwise_iff_getElem.mp h
  rcases Nat.lt_trichotomy i j with hlt | heq | hgt
  · exact absurd hR (hnot i j i.isLt j.isLt hlt)
  · exact Fin.ext heq
  · exact absurd (hsymm _ _ hR) (hnot j i j.isLt i.isLt hgt)

namespace Object

variable {o o' : Object} {key name : String} {v : Value}

/-! ## Look-up -/

theorem get?_cons (key : String) (v : Value) (rest : Object) (name : String) :
    Object.get? ((key, v) :: rest) name = if name = key then some v else Object.get? rest name := by
  simp only [Object.get?, List.lookup_cons]
  by_cases h : name = key
  · simp [h]
  · simp [h, beq_eq_false_iff_ne.mpr h]

theorem mem_of_get? (h : o.get? key = some v) : (key, v) ∈ o := by
  obtain ⟨before, after, rfl, -⟩ := List.lookup_eq_some_iff.mp h
  simp

theorem mem_keys_of_get? (h : o.get? key = some v) : key ∈ o.keys :=
  List.mem_map_of_mem (mem_of_get? h)

theorem get?_eq_none_iff : o.get? key = none ↔ key ∉ o.keys := by
  rw [get?, List.lookup_eq_none_iff, keys, List.mem_map]
  constructor
  · rintro h ⟨field, hfield, rfl⟩
    simpa using h field hfield
  · intro h field hfield
    exact bne_iff_ne.mpr fun heq => h ⟨field, hfield, heq.symm⟩

/-- If keys do not repeat, look-up is membership. -/
theorem get?_eq_some_iff (hnodup : o.keys.Nodup) : o.get? key = some v ↔ (key, v) ∈ o := by
  induction o with
  | nil => simp [Object.get?]
  | cons field rest ih =>
    obtain ⟨k, w⟩ := field
    obtain ⟨hnew, hnodup⟩ := List.nodup_cons.1 hnodup
    rw [get?_cons, List.mem_cons, Prod.mk.injEq]
    by_cases hkey : key = k
    · subst hkey
      have hnone : (key, v) ∉ rest := fun hmem => hnew (List.mem_map.mpr ⟨_, hmem, rfl⟩)
      simp [hnone, eq_comm]
    · simp [hkey, ih hnodup]

/-- If keys do not repeat, look-up does not depend on the order of fields. -/
theorem get?_eq_of_perm (hnodup : o.keys.Nodup) (h : o.Perm o') (name : String) :
    o'.get? name = o.get? name := by
  have hnodup' : o'.keys.Nodup := (h.map Prod.fst).nodup_iff.1 hnodup
  ext v
  rw [get?_eq_some_iff hnodup', get?_eq_some_iff hnodup, h.mem_iff]

instance (o : Object) : Decidable o.Sorted :=
  inferInstanceAs (Decidable (o.Pairwise fun a b => a.1 < b.1))

theorem Sorted.nodup_keys (h : o.Sorted) : o.keys.Nodup := by
  refine List.pairwise_map.2 (h.imp fun hlt heq => ?_)
  rw [heq] at hlt
  exact String.lt_irrefl _ hlt

/-- If keys do not repeat, fields of one key are one field. -/
theorem eq_of_key_eq (hnodup : o.keys.Nodup) {i j : Fin o.length}
    (h : (o.get i).1 = (o.get j).1) : i = j :=
  eq_of_pairwise_not (fun _ _ => Eq.symm) (List.pairwise_map.1 hnodup) h

/-! ## Building objects -/

theorem insert_perm (hnew : key ∉ o.keys) : (o.insert key v).Perm ((key, v) :: o) := by
  induction o with
  | nil => rfl
  | cons field rest ih =>
    obtain ⟨k, w⟩ := field
    obtain ⟨hne, hnew⟩ := not_or.1 (mt List.mem_cons.mpr hnew)
    rw [insert, if_neg hne]
    split
    next => rfl
    next => exact ((ih hnew).cons _).trans (.swap ..)

theorem key_lt_of_mem_insert {field : String × Value} (hsorted : o.Sorted)
    (hfield : field ∈ o.insert key v) (hlt : ∀ f ∈ o, name < f.1) (hkey : name < key) :
    name < field.1 := by
  induction o with
  | nil => grind [insert]
  | cons head rest ih =>
    obtain ⟨k, w⟩ := head
    rw [insert] at hfield
    grind [Sorted]

theorem sorted_insert (hsorted : o.Sorted) : (o.insert key v).Sorted := by
  induction o with
  | nil => simp [insert, Sorted]
  | cons head rest ih =>
    obtain ⟨k, w⟩ := head
    obtain ⟨hhead, hrest⟩ := List.pairwise_cons.1 hsorted
    rw [insert]
    split
    next heq => exact List.pairwise_cons.2 ⟨fun f hf => heq ▸ hhead f hf, hrest⟩
    next hne =>
      split
      next hlt =>
        refine List.pairwise_cons.2 ⟨fun f hf => ?_, hsorted⟩
        rcases List.mem_cons.mp hf with rfl | hf
        · exact hlt
        · exact String.lt_trans hlt (hhead f hf)
      next hge =>
        have hlt : k < key := by
          by_contra hnot
          exact hne (String.le_antisymm (String.not_lt.1 hnot) (String.not_lt.1 hge))
        exact List.pairwise_cons.2
          ⟨fun f hf => key_lt_of_mem_insert hrest hf hhead hlt, ih hrest⟩

theorem sorted_ofList (fields : List (String × Value)) : (ofList fields).Sorted := by
  have hfold : ∀ (fields : List (String × Value)) (o : Object), o.Sorted →
      Sorted (fields.foldl (fun o field => insert field.1 field.2 o) o) := by
    intro fields
    induction fields with
    | nil => exact fun o ho => ho
    | cons field rest ih => exact fun o ho => ih _ (sorted_insert ho)
  exact hfold fields [] .nil

/-- An object built from fields with different keys holds these fields. -/
theorem ofList_perm {fields : List (String × Value)} (hnodup : (fields.map Prod.fst).Nodup) :
    (ofList fields).Perm fields := by
  have hfold : ∀ (fields : List (String × Value)) (o : Object),
      (fields.map Prod.fst ++ o.keys).Nodup →
        (fields.foldl (fun o field => insert field.1 field.2 o) o).Perm (fields ++ o) := by
    intro fields
    induction fields with
    | nil => exact fun o _ => .refl _
    | cons field rest ih =>
      intro o hnodup
      have hinsert : (insert field.1 field.2 o).Perm (field :: o) := insert_perm (by grind)
      refine (ih _ ?_).trans ((hinsert.append_left rest).trans List.perm_middle)
      refine (((hinsert.map Prod.fst).append_left _).trans List.perm_middle).nodup_iff.2 hnodup
  rw [ofList]
  simpa using hfold fields [] (by simpa [keys] using hnodup)

theorem get?_insert (key : String) (v : Value) (o : Object) (name : String) :
    (o.insert key v).get? name = if name = key then some v else o.get? name := by
  induction o with
  | nil => rw [insert, get?_cons]
  | cons field rest ih =>
    obtain ⟨k, w⟩ := field
    rw [insert]
    split
    next heq =>
      subst heq
      rw [get?_cons, get?_cons]
      grind
    next hne =>
      split
      next => rw [get?_cons]
      next =>
        rw [get?_cons, ih, get?_cons]
        grind

/-- Of the fields with one key, an object has the last one. -/
theorem get?_ofList (fields : List (String × Value)) (name : String) :
    (ofList fields).get? name = Object.get? fields.reverse name := by
  have hfold : ∀ fields : List (String × Value),
      (fields.foldr (fun field o => Object.insert field.1 field.2 o) []).get? name =
        Object.get? fields name := by
    intro fields
    induction fields with
    | nil => rfl
    | cons field rest ih => rw [List.foldr_cons, get?_insert, get?_cons, ih]
  rw [ofList, List.foldl_eq_foldr_reverse]
  exact hfold _

theorem get?_ofList_eq_some_iff {fields : List (String × Value)} :
    (ofList fields).get? name = some v ↔
      ∃ before after, fields = before ++ (name, v) :: after ∧ ∀ f ∈ after, f.1 ≠ name := by
  rw [get?_ofList, Object.get?, List.lookup_eq_some_iff]
  constructor
  · rintro ⟨after, before, hsplit, hafter⟩
    refine ⟨before.reverse, after.reverse, ?_, fun f hf => ?_⟩
    · simpa using congrArg List.reverse hsplit
    · simpa [bne_iff_ne, ne_comm] using hafter f (List.mem_reverse.mp hf)
  · rintro ⟨before, after, rfl, hafter⟩
    refine ⟨after.reverse, before.reverse, by simp, fun f hf => ?_⟩
    simpa [bne_iff_ne, ne_comm] using hafter f (List.mem_reverse.mp hf)

theorem mem_keys_ofList_iff {fields : List (String × Value)} :
    name ∈ (ofList fields).keys ↔ name ∈ fields.map Prod.fst := by
  rw [← not_iff_not, ← get?_eq_none_iff, get?_ofList, get?_eq_none_iff]
  simp [keys]

/-- An object has as many fields as it is built from when no key repeats. -/
theorem length_ofList_eq_iff {fields : List (String × Value)} :
    (ofList fields).length = fields.length ↔ (fields.map Prod.fst).Nodup := by
  refine ⟨fun h => ?_, fun h => (ofList_perm h).length_eq⟩
  have hnodup := (sorted_ofList fields).nodup_keys
  have hsub := List.subperm_of_subset hnodup fun _ h => mem_keys_ofList_iff.mp h
  exact (hsub.perm_of_length_le (by simp [keys, h])).nodup_iff.mp hnodup

/-- A sorted object is built from its fields in any order. -/
theorem Sorted.ofList_eq {fields : List (String × Value)} (h : o.Sorted) (hperm : fields.Perm o) :
    ofList fields = o := by
  have hnodup : (fields.map Prod.fst).Nodup := (hperm.map Prod.fst).nodup_iff.2 h.nodup_keys
  refine ((ofList_perm hnodup).trans hperm).eq_of_pairwise ?_ (sorted_ofList fields) h
  intro f g _ _ hfg hgf
  exact absurd (String.lt_trans hfg hgf) (String.lt_irrefl f.1)

/-! ## Renaming -/

/-- The fields of an object under other keys, in the order of these. -/
def rename (r : String → String) (o : Object) : Object :=
  ofList (o.map fun field => (r field.1, field.2))

theorem sorted_rename (r : String → String) (o : Object) : (o.rename r).Sorted := sorted_ofList _

/-- Different keys of an object are renamed to different ones, the given names among them stay, and
no other key becomes one of these names. -/
structure RenamedApart (r : String → String) (names : List String) (o : Object) : Prop where
  injective : ∀ k ∈ o.keys, ∀ l ∈ o.keys, r k = r l → k = l
  fixes : ∀ k ∈ o.keys, k ∈ names → r k = k
  avoids : ∀ k ∈ o.keys, k ∉ names → r k ∉ names

variable {r : String → String} {names : List String}

/-- Renaming keys keeps the fields apart. -/
theorem RenamedApart.rename_perm (h : RenamedApart r names o) (hnodup : o.keys.Nodup) :
    (o.rename r).Perm (o.map fun field => (r field.1, field.2)) := by
  refine ofList_perm ?_
  have hkeys : (o.map fun field => (r field.1, field.2)).map Prod.fst = o.keys.map r := by
    simp [keys]
  rw [hkeys]
  exact hnodup.map_on h.injective

/-- A key is one of the given names exactly when its new name is. -/
theorem RenamedApart.mem_names_iff (h : RenamedApart r names o) {sub : List String}
    (hsub : sub ⊆ names) (hkey : key ∈ o.keys) : r key ∈ sub ↔ key ∈ sub := by
  by_cases hnames : key ∈ names
  · rw [h.fixes key hkey hnames]
  · exact iff_of_false (fun hr => h.avoids key hkey hnames (hsub hr)) fun hk => hnames (hsub hk)

/-- Renaming keeps the fields of the given names. -/
theorem RenamedApart.get?_rename (h : RenamedApart r names o) (hnodup : o.keys.Nodup)
    (hname : name ∈ names) : (o.rename r).get? name = o.get? name := by
  have hperm := h.rename_perm hnodup
  ext v
  rw [get?_eq_some_iff (sorted_rename r o).nodup_keys, get?_eq_some_iff hnodup, hperm.mem_iff,
    List.mem_map]
  constructor
  · rintro ⟨⟨k, w⟩, hfield, heq⟩
    obtain ⟨rfl, rfl⟩ := Prod.mk.inj heq
    have hkey : k ∈ o.keys := List.mem_map_of_mem hfield
    have hk := (h.mem_names_iff (List.Subset.refl names) hkey).1 hname
    rwa [h.fixes k hkey hk]
  · intro hfield
    exact ⟨(name, v), hfield, by rw [h.fixes name (List.mem_map_of_mem hfield) hname]⟩

end Object

namespace Value

mutual

/-- In every object within a value, keys increase. -/
def WellFormed : Value → Prop
  | arr items => WellFormedItems items
  | obj fields => Object.Sorted fields ∧ WellFormedFields fields
  | _ => True

def WellFormedItems : List Value → Prop
  | [] => True
  | v :: rest => v.WellFormed ∧ WellFormedItems rest

def WellFormedFields : List (String × Value) → Prop
  | [] => True
  | (_, v) :: rest => v.WellFormed ∧ WellFormedFields rest

end

mutual

/-- Whether keys increase in every object within a value. -/
def decidableWellFormed : (v : Value) → Decidable v.WellFormed
  | arr items => decidableWellFormedItems items
  | obj fields =>
    @instDecidableAnd _ _ (inferInstanceAs (Decidable (Object.Sorted fields)))
      (decidableWellFormedFields fields)
  | null | bool _ | num _ | str _ => isTrue trivial

def decidableWellFormedItems : (items : List Value) → Decidable (WellFormedItems items)
  | [] => isTrue trivial
  | v :: rest => @instDecidableAnd _ _ (decidableWellFormed v) (decidableWellFormedItems rest)

def decidableWellFormedFields :
    (fields : List (String × Value)) → Decidable (WellFormedFields fields)
  | [] => isTrue trivial
  | (_, v) :: rest =>
    @instDecidableAnd _ _ (decidableWellFormed v) (decidableWellFormedFields rest)

end

instance (v : Value) : Decidable v.WellFormed := decidableWellFormed v

theorem wellFormed_arr_iff {items : List Value} :
    (arr items).WellFormed ↔ ∀ x ∈ items, x.WellFormed := by
  rw [WellFormed]
  induction items with
  | nil => simp [WellFormedItems]
  | cons v rest ih => rw [WellFormedItems, ih, List.forall_mem_cons]

theorem wellFormed_obj_iff {o : Object} :
    (obj o).WellFormed ↔ o.Sorted ∧ ∀ f ∈ o, f.2.WellFormed := by
  have hfields : ∀ fields, WellFormedFields fields ↔ ∀ f ∈ fields, f.2.WellFormed := by
    intro fields
    induction fields with
    | nil => simp [WellFormedFields]
    | cons f rest ih => rw [WellFormedFields, ih, List.forall_mem_cons]
  rw [WellFormed, hfields]

end Value

end ShapeMatch
