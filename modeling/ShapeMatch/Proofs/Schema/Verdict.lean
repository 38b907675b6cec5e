import ShapeMatch.Proofs.KeyPattern
import ShapeMatch.Proofs.Schema.Compile

/-!
# Verdicts on documents

Compiled schemas decide the meaning of schemas in which no object node requires one name twice, and
a schema that is read off a document is of this kind.

## Main statements

* `Schema.distinctRequired_ofValue`: schemas of documents require no name twice.
* `Schema.matches_iff_satisfies`: what the verdicts of compiled schemas mean.
-/

namespace ShapeMatch

namespace Schema

variable {interp : Interpretation}

/-! ## Schemas of documents -/

theorem ofItems_eq_map (items : List Value) : ofItems items = items.map ofValue := by
  induction items with
  | nil => rfl
  | cons v rest ih => rw [ofItems, ih, List.map_cons]

theorem ofFields_eq_map (fields : List (String × Value)) :
    ofFields fields = fields.map fun field => (field.1, ofValue field.2) := by
  induction fields with
  | nil => rfl
  | cons field rest ih => rw [ofFields, ih, List.map_cons]

theorem nodup_requiredNames_ofFields {fields : Object} (hnodup : fields.keys.Nodup) :
    (requiredNames (ofFields fields)).Nodup := by
  have hkeys : requiredNames (ofFields fields) =
      fields.keys.filterMap fun key => (KeyPattern.ofKey key).requiredName? := by
    simp [requiredNames, ofFields_eq_map, Object.keys, List.filterMap_map]
  rw [hkeys]
  apply hnodup.filterMap
  intro key key' name h h'
  rw [KeyPattern.eq_of_ofKey_eq (KeyPattern.requiredName?_eq_some_iff.mp h),
    KeyPattern.eq_of_ofKey_eq (KeyPattern.requiredName?_eq_some_iff.mp h')]

mutual

theorem distinctRequired_ofValue : ∀ {v : Value}, v.WellFormed → (ofValue v).DistinctRequired
  | .obj fields, h => by
    rw [Value.WellFormed] at h
    rw [ofValue, DistinctRequired]
    exact ⟨nodup_requiredNames_ofFields h.1.nodup_keys, distinctInEntries_ofFields h.2⟩
  | .arr items, h => by
    rw [Value.WellFormed] at h
    rw [ofValue, DistinctRequired]
    exact distinctInItems_ofItems h
  | .null, _ | .bool _, _ | .num _, _ | .str _, _ => by simp only [ofValue, DistinctRequired]

theorem distinctInItems_ofItems : ∀ {items : List Value}, Value.WellFormedItems items →
    DistinctInItems (ofItems items)
  | [], _ => by simp only [ofItems, DistinctInItems]
  | v :: rest, h => by
    rw [Value.WellFormedItems] at h
    exact ⟨distinctRequired_ofValue h.1, distinctInItems_ofItems h.2⟩

theorem distinctInEntries_ofFields : ∀ {fields : List (String × Value)},
    Value.WellFormedFields fields → DistinctInEntries (ofFields fields)
  | [], _ => by simp only [ofFields, DistinctInEntries]
  | (key, v) :: rest, h => by
    rw [Value.WellFormedFields] at h
    exact ⟨distinctRequired_ofValue h.1, distinctInEntries_ofFields h.2⟩

end

/-! ## Verdicts -/

/-- Compiled matching decides the meaning of every schema that requires no name twice at an object
node, within an enclosing object and alone. Schemas of documents require no name twice. -/
theorem matches_iff_satisfies :
    (∀ document : Value, document.WellFormed → (ofValue document).DistinctRequired) ∧
      ∀ (s : Schema) (m : Matcher), s.DistinctRequired → s.compile interp = .ok m →
        (∀ parent v, m.matchesIn parent v = true ↔ s.Satisfies interp (some parent) v) ∧
          ∀ v, m.matchesAlone v = true ↔ s.Satisfies interp none v := by
  refine ⟨fun _ => distinctRequired_ofValue, ?_⟩
  intro s m hdistinct hm
  rw [← follows_eq_satisfies hdistinct]
  exact ⟨fun _ _ => judge_iff_follows hm, fun _ => judge_iff_follows hm⟩

/-- An object satisfies a schema of a named field, an optional wildcard that refers to it and a
catch-all: the compiled schema says so. -/
theorem satisfies_object_with_reference :
    (object [("a", .literal (.num (.int 1))), ("(*)", .literal (.str "$a$")),
      ("**", .object [])]).Satisfies (fun _ _ => true) none
        (.obj [("a", .num (.int 1)), ("b", .num (.int 1)), ("c", .obj [])]) := by
  have hmatches : (match compile (fun _ _ => true) (object [("a", .literal (.num (.int 1))),
      ("(*)", .literal (.str "$a$")), ("**", .object [])]) with
    | .ok m => m.matchesAlone (.obj [("a", .num (.int 1)), ("b", .num (.int 1)), ("c", .obj [])])
    | .error _ => false) = true := by
    decide +kernel
  split at hmatches
  next m hm =>
    refine ((matches_iff_satisfies.2 _ m ?_ hm).2 _).1 hmatches
    simp only [DistinctRequired, DistinctInEntries]
    decide +kernel
  next => cases hmatches

end Schema

end ShapeMatch
