import ShapeMatch.Proofs.Schema.Fault
import ShapeMatch.Proofs.Schema.Verdict
import ShapeMatch.Proofs.Value.DeepEqual

/-!
# When schemas denote one predicate

Schemas that denote one predicate have the same form, with equal literals and the same capabilities
at the same places. On schemas whose literals are well-formed this is an equivalence, and on those
that documents are it is deep equality of the documents: a document has its keys in order, so that
comparing entries in lockstep is looking up keys.

## Main definitions

* `Schema.literals`: the literals within a schema.
* `Schema.WellFormed`: the literals within a schema are documents.

## Main statements

* `Schema.samePredicate_equivalence`: denoting one predicate is an equivalence.
* `Schema.samePredicate_ofValue_eq`: documents denote one predicate when they are deeply equal.
-/

namespace ShapeMatch

namespace Schema

variable {s t u : Schema}

/-! ## Forms -/

@[simp] theorem sameItems_iff {as bs : List Schema} :
    sameItems as bs = true ↔ List.Forall₂ (fun s t => s.samePredicate t = true) as bs := by
  induction as generalizing bs with
  | nil => cases bs <;> simp [sameItems]
  | cons s as ih =>
    cases bs with
    | nil => simp [sameItems]
    | cons t bs => rw [sameItems, Bool.and_eq_true, ih, List.forall₂_cons]

@[simp] theorem sameEntries_iff {es fs : List (String × Schema)} :
    sameEntries es fs = true ↔
      List.Forall₂ (fun e f => e.1 = f.1 ∧ e.2.samePredicate f.2 = true) es fs := by
  induction es generalizing fs with
  | nil => cases fs <;> simp [sameEntries]
  | cons e es ih =>
    cases fs with
    | nil => simp [sameEntries]
    | cons f fs =>
      rw [sameEntries, Bool.and_eq_true, Bool.and_eq_true, beq_iff_eq, ih, List.forall₂_cons]

theorem samePredicate_literal_iff {v : Value} :
    (literal v).samePredicate t = true ↔ ∃ w, t = literal w ∧ v.deepEqual w = true := by
  cases t <;> simp [samePredicate]

theorem samePredicate_capability_iff {c : Capability} :
    (capability c).samePredicate t = true ↔ capability c = t := by
  cases t <;> simp [samePredicate]

theorem samePredicate_chain_iff {c : Chain} :
    (chain c).samePredicate t = true ↔ chain c = t := by
  cases t <;> simp [samePredicate]

theorem samePredicate_undefined_iff : undefined.samePredicate t = true ↔ undefined = t := by
  cases t <;> simp [samePredicate]

theorem samePredicate_object_iff {es : List (String × Schema)} :
    (object es).samePredicate t = true ↔ ∃ fs, t = object fs ∧
      List.Forall₂ (fun e f => e.1 = f.1 ∧ e.2.samePredicate f.2 = true) es fs := by
  cases t <;> simp [samePredicate]

theorem samePredicate_array_iff {as : List Schema} :
    (array as).samePredicate t = true ↔ ∃ bs, t = array bs ∧
      List.Forall₂ (fun a b => a.samePredicate b = true) as bs := by
  cases t <;> simp [samePredicate]

/-! ## Well-formed schemas -/

/-- The literals within a schema. -/
def literals (s : Schema) : List Value :=
  s.postorder.filterMap fun
    | literal v => some v
    | _ => none

/-- Every literal within a schema is well-formed. -/
def WellFormed (s : Schema) : Prop := ∀ v ∈ s.literals, v.WellFormed

instance (s : Schema) : Decidable s.WellFormed :=
  inferInstanceAs (Decidable (∀ v ∈ s.literals, v.WellFormed))

@[simp] theorem wellFormed_literal_iff {v : Value} : (literal v).WellFormed ↔ v.WellFormed := by
  simp [WellFormed, literals, postorder]

@[simp] theorem wellFormed_array_iff {items : List Schema} :
    (array items).WellFormed ↔ ∀ s ∈ items, s.WellFormed := by
  simp only [WellFormed, literals, postorder, List.filterMap_append, postorderOfItems_eq_flatMap,
    List.forall_mem_append, List.filterMap_flatMap, List.forall_mem_flatMap]
  exact and_iff_left (by simp)

@[simp] theorem wellFormed_object_iff {entries : List (String × Schema)} :
    (object entries).WellFormed ↔ ∀ e ∈ entries, e.2.WellFormed := by
  simp only [WellFormed, literals, postorder, List.filterMap_append, postorderOfEntries_eq_flatMap,
    List.forall_mem_append, List.filterMap_flatMap, List.forall_mem_flatMap]
  exact and_iff_left (by simp)

/-! ## Laws -/

theorem samePredicate_self (hs : s.WellFormed) : s.samePredicate s = true := by
  induction s using inductOn with
  | literal v =>
    have hv := wellFormed_literal_iff.mp hs
    exact samePredicate_literal_iff.mpr ⟨v, rfl, (Value.same_iff.mp (.refl hv)).2.2⟩
  | capability => exact samePredicate_capability_iff.mpr rfl
  | chain => exact samePredicate_chain_iff.mpr rfl
  | undefined => exact samePredicate_undefined_iff.mpr rfl
  | object entries ih =>
    rw [wellFormed_object_iff] at hs
    refine samePredicate_object_iff.mpr ⟨entries, rfl, List.forall₂_same.mpr ?_⟩
    exact fun e he => ⟨rfl, ih e he (hs e he)⟩
  | array items ih =>
    rw [wellFormed_array_iff] at hs
    refine samePredicate_array_iff.mpr ⟨items, rfl, List.forall₂_same.mpr ?_⟩
    exact fun item hitem => ih item hitem (hs item hitem)

/-- Schemas of one predicate denote the predicate of the same schemas. Symmetry and transitivity
follow, so that this is the one induction for both. -/
theorem samePredicate_congr (hs : s.WellFormed) (ht : t.WellFormed) (hu : u.WellFormed)
    (h : s.samePredicate t = true) : s.samePredicate u = true ↔ t.samePredicate u = true := by
  induction s using inductOn generalizing t u with
  | literal v =>
    obtain ⟨w, rfl, hvw⟩ := samePredicate_literal_iff.mp h
    rw [samePredicate_literal_iff, samePredicate_literal_iff]
    refine exists_congr fun x => and_congr_right ?_
    rintro rfl
    rw [wellFormed_literal_iff] at hs ht hu
    rw [Value.Same.deepEqual_eq (Value.same_iff.mpr ⟨hs, ht, hvw⟩) (.refl hu)]
  | capability => rw [samePredicate_capability_iff.mp h]
  | chain => rw [samePredicate_chain_iff.mp h]
  | undefined => rw [samePredicate_undefined_iff.mp h]
  | object es ih =>
    obtain ⟨fs, rfl, hfs⟩ := samePredicate_object_iff.mp h
    rw [samePredicate_object_iff, samePredicate_object_iff]
    refine exists_congr fun gs => and_congr_right ?_
    rintro rfl
    rw [wellFormed_object_iff] at hs ht hu
    refine forall₂_congr_left_of_mem hfs fun e he f hf g hg hef => ?_
    rw [hef.1, ih e he (hs e he) (ht f hf) (hu g hg) hef.2]
  | array as ih =>
    obtain ⟨bs, rfl, hbs⟩ := samePredicate_array_iff.mp h
    rw [samePredicate_array_iff, samePredicate_array_iff]
    refine exists_congr fun cs => and_congr_right ?_
    rintro rfl
    rw [wellFormed_array_iff] at hs ht hu
    exact forall₂_congr_left_of_mem hbs fun a ha b hb c hc hab =>
      ih a ha (hs a ha) (ht b hb) (hu c hc) hab

/-- Denoting one predicate is an equivalence of schemas. -/
theorem samePredicate_equivalence :
    Equivalence fun s t : {s : Schema // s.WellFormed} => s.1.samePredicate t.1 = true where
  refl s := samePredicate_self s.2
  symm {s t} hst := (samePredicate_congr s.2 t.2 s.2 hst).mp (samePredicate_self s.2)
  trans {s t u} hst htu := (samePredicate_congr s.2 t.2 u.2 hst).mpr htu

/-! ## Documents -/

/-- Documents denote one predicate as schemas exactly when they are deeply equal. -/
theorem samePredicate_ofValue_eq {v w : Value} (hv : v.WellFormed) (hw : w.WellFormed) :
    (ofValue v).samePredicate (ofValue w) = v.deepEqual w := by
  rw [Bool.eq_iff_iff]
  induction v using Value.inductOn generalizing w with
  | null | bool | num | str =>
    cases w <;> simp [ofValue, samePredicate, Value.deepEqual, Value.eqBy]
  | arr xs ih =>
    cases w with
    | arr ys =>
      rw [Value.wellFormed_arr_iff] at hv hw
      rw [ofValue, ofValue, samePredicate, sameItems_iff, ofItems_eq_map, ofItems_eq_map,
        List.forall₂_map_left_iff, List.forall₂_map_right_iff, Value.deepEqual, Value.eqBy_arr_iff]
      exact forall₂_congr_of_mem fun x hx y hy => ih x hx (hv x hx) (hw y hy)
    | _ => simp [ofValue, samePredicate, Value.deepEqual, Value.eqBy]
  | obj o ih =>
    cases w with
    | obj p =>
      rw [Value.wellFormed_obj_iff] at hv hw
      rw [ofValue, ofValue, samePredicate, sameEntries_iff, ofFields_eq_map, ofFields_eq_map,
        List.forall₂_map_left_iff, List.forall₂_map_right_iff, Value.deepEqual,
        Value.eqBy_obj_iff hv.1 hw.1]
      -- keys in order: both sides now go through the fields in lockstep
      exact forall₂_congr_of_mem fun f hf g hg =>
        and_congr_right fun _ => ih f hf (hv.2 f hf) (hw.2 g hg)
    | _ => simp [ofValue, samePredicate, Value.deepEqual, Value.eqBy]

/-- An integer and the same double beside empty containers, and one key more. -/
theorem samePredicate_of_nested_documents :
    let document : Number → Value := fun n =>
      .obj [("a", .arr [.num n, .obj [], .arr []]), ("b", .obj [("c", .null), ("d", .str "$a$")])]
    let v : Value := document (.int 1)
    let w : Value := document (.float ⟨false, ⟨0x3FF0000000000000, by decide⟩⟩)
    let x : Value := .obj [("a", .arr [.num (.int 1), .obj [], .arr []])]
    (v.WellFormed ∧ w.WellFormed ∧ x.WellFormed) ∧
      (ofValue v).samePredicate (ofValue w) = true ∧
        (ofValue v).samePredicate (ofValue x) = false ∧
          (ofValue x).samePredicate (ofValue v) = false := by
  intro document v w x
  have hv : v.WellFormed := by decide +kernel
  have hw : w.WellFormed := by decide +kernel
  have hx : x.WellFormed := by decide +kernel
  refine ⟨⟨hv, hw, hx⟩, ?_, ?_, ?_⟩
  · exact (samePredicate_ofValue_eq hv hw).trans (by decide +kernel)
  · exact (samePredicate_ofValue_eq hv hx).trans (by decide +kernel)
  · exact (samePredicate_ofValue_eq hx hv).trans (by decide +kernel)

end Schema

end ShapeMatch
