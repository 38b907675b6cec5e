import ShapeMatch.Proofs.Object.Congruence
import ShapeMatch.Proofs.Schema.Fault
import ShapeMatch.Proofs.Schema.Verdict

/-!
# Documents without operators as schemas

A document without operators in its strings and keys asks, as a schema, for what is equal to it.
Each key requires the field of this name, so that an object has these fields and no other ones.
Arrays and empty objects are not of this kind: as schemas, an array asks every item to follow all
of its own, and an empty object asks for any object.

## Main definitions

* `IsFieldName`: keys without operators.
* `Value.OperatorFree`: documents of scalars and non-empty objects without operators.

## Main statements

* `accounts_fields_iff`: an object accounts for required fields when it has exactly these fields.
* `Schema.matches_eq_deepEqual`: an operator-free document matches by deep equality.
-/

namespace ShapeMatch

/-! ## Required fields -/

theorem Demand.metBy_required_iff {name : String} {accepts : Value → Prop} {o : Object} :
    Demand.MetBy ⟨⟨false, .field name⟩, accepts⟩ o ↔ ∃ v, o.get? name = some v ∧ accepts v := by
  constructor
  · intro h
    have hfield := h name rfl
    cases hget : o.get? name with
    | some v => exact ⟨v, rfl, by simpa [hget] using hfield⟩
    | none => simp [hget] at hfield
  · rintro ⟨v, hget, hv⟩ _ ⟨⟩
    simpa [hget] using hv

/-- An object accounts for demands of named fields, all required, when it has these fields with
values that are accepted, and no other ones. -/
theorem accounts_fields_iff {R : Value → Value → Prop} {fields o : Object}
    (hfields : fields.Sorted) (ho : o.Sorted) :
    Accounts (fields.map fun f => ⟨⟨false, .field f.1⟩, R f.2⟩) o ↔ fields.Related R o := by
  let ds : List Demand := fields.map fun f => ⟨⟨false, .field f.1⟩, R f.2⟩
  have hclaimants : ds.filterMap Demand.claimant? = [] := by
    simp [ds, Demand.claimant?]
  have hunnamed : unnamedFields ds o = [] ↔ o.keys ⊆ fields.keys := by
    simp [ds, unnamedFields, Object.keys, List.subset_def]
  have hnamed : (∀ d ∈ ds, d.MetBy o) ↔ ∀ f ∈ fields, ∃ w, o.get? f.1 = some w ∧ R f.2 w := by
    simp only [ds, List.forall_mem_map, Demand.metBy_required_iff]
  rw [Object.related_iff_get? hfields ho, ← hnamed, ← hunnamed, ← shareable_nil_iff, ← hclaimants]
  exact ⟨fun h => ⟨h.named, h.others⟩, fun h => ⟨h.1, h.2⟩⟩

/-! ## Operator-free documents -/

/-- A key without an operator that counts in keys: no wildcard, no catch-all and not optional. -/
def IsFieldName (key : String) : Prop :=
  ∀ t ∈ leading? key, t.kind ≠ .wildcard ∧ t.kind ≠ .catchAll ∧ t.kind ≠ .optional

/-- A field name requires the field. One that would be a reference in a value is only a name. -/
theorem IsFieldName.ofKey_eq {key : String} (h : IsFieldName key) :
    KeyPattern.ofKey key = ⟨false, .field key⟩ := by
  rw [KeyPattern.ofKey_of_leading?_ne fun t ht => (h t ht).2.2]
  cases hleading : leading? key with
  | none => rfl
  | some t =>
    obtain ⟨kind, name, source⟩ := t
    have hkind := h _ hleading
    cases kind with
    | sibling => rfl
    | _ => simp at hkind

namespace Value

mutual

/-- A scalar or a non-empty object of such, without operators: no string is a wildcard or a
reference, and every key is the name of a field. -/
def OperatorFree : Value → Prop
  | str s => ∀ t ∈ leading? s, t.kind ≠ .wildcard ∧ t.kind ≠ .sibling
  | arr _ => False
  | obj fields => fields ≠ [] ∧ FieldsOperatorFree fields
  | null | bool _ | num _ => True

def FieldsOperatorFree : List (String × Value) → Prop
  | [] => True
  | (key, v) :: rest => (IsFieldName key ∧ v.OperatorFree) ∧ FieldsOperatorFree rest

end

theorem operatorFree_obj_iff {fields : Object} :
    (obj fields).OperatorFree ↔
      fields ≠ [] ∧ ∀ f ∈ fields, IsFieldName f.1 ∧ f.2.OperatorFree := by
  have hfields : ∀ fields, FieldsOperatorFree fields ↔
      ∀ f ∈ fields, IsFieldName f.1 ∧ f.2.OperatorFree := by
    intro fields
    induction fields with
    | nil => simp [FieldsOperatorFree]
    | cons f rest ih => rw [FieldsOperatorFree, ih, List.forall_mem_cons]
  rw [OperatorFree, hfields]

end Value

namespace Schema

variable {interp : Interpretation} {node : List Demand → Object → Prop} {document v : Value}

theorem demands_ofFields {fields : Object} (hfree : (Value.obj fields).OperatorFree) (o : Object) :
    demands interp node (ofFields fields) o =
      fields.map fun f => ⟨⟨false, .field f.1⟩, (ofValue f.2).Asks interp node (some o)⟩ := by
  rw [demands_eq_map, ofFields_eq_map, List.map_map]
  apply List.map_congr_left
  intro f hf
  have hkey := ((Value.operatorFree_obj_iff.mp hfree).2 f hf).1.ofKey_eq
  simp only [Function.comp_apply, hkey]

/-- As a schema, an operator-free document asks for what is deeply equal to it. -/
theorem satisfies_ofValue_iff (hdocument : document.WellFormed) (hfree : document.OperatorFree)
    {parent : Option Object} (hv : v.WellFormed) :
    (ofValue document).Satisfies interp parent v ↔ v.deepEqual document = true := by
  induction document using Value.inductOn generalizing parent v with
  | null | bool | num => simp only [ofValue, Satisfies, Asks]
  | str s =>
    rw [Value.OperatorFree] at hfree
    rw [ofValue, Satisfies, Asks, StringAsks]
    split
    next hleading => exact absurd rfl (hfree _ hleading).2
    next hleading => exact absurd rfl (hfree _ hleading).1
    next => rfl
  | arr items => exact absurd hfree (by simp [Value.OperatorFree])
  | obj fields ih =>
    obtain ⟨hne, hparts⟩ := Value.operatorFree_obj_iff.mp hfree
    rw [Value.wellFormed_obj_iff] at hdocument
    rw [ofValue, Satisfies, asks_object_iff]
    cases v with
    | obj o =>
      rw [Value.wellFormed_obj_iff] at hv
      have hentries : ofFields fields ≠ [] := by simpa [ofFields_eq_map] using hne
      have haccounts : Accounts (demands interp Accounts (ofFields fields) o) o ↔
          fields.Related (fun expected w => w.deepEqual expected = true) o := by
        rw [demands_ofFields hfree, accounts_fields_iff
          (R := fun expected w => (ofValue expected).Asks interp Accounts (some o) w)
          hdocument.1 hv.1]
        exact forall₂_congr_of_mem fun f hf g hg => and_congr_right fun _ =>
          ih f hf (hdocument.2 f hf) (hparts f hf).2 (hv.2 g hg)
      simp only [Value.obj.injEq, exists_eq_left', hentries, false_or]
      rw [haccounts, Value.deepEqual, Value.eqBy_obj_iff hv.1 hdocument.1]
      exact ⟨fun h => h.symm fun _ _ => id, fun h => h.symm fun _ _ => id⟩
    | _ => simp [Value.deepEqual, Value.eqBy]

/-- An operator-free document can be compiled: it has no catch-all and no chain. -/
theorem compiles_ofValue (hfree : document.OperatorFree) : (ofValue document).Compiles interp := by
  induction document using Value.inductOn with
  | null | bool | num | str =>
    exact errorOf?_eq_none_iff.mp (errorOf?_compile _)
  | arr items => exact absurd hfree (by simp [Value.OperatorFree])
  | obj fields ih =>
    have hparts := (Value.operatorFree_obj_iff.mp hfree).2
    have hcatchAll : catchAllKeys (ofFields fields) = [] := by
      have hkeys : (ofFields fields).map Prod.fst = fields.keys := by
        simp [ofFields_eq_map, Object.keys]
      rw [catchAllKeys, hkeys, List.filter_eq_nil_iff]
      intro key hkey
      obtain ⟨f, hf, rfl⟩ := List.mem_map.mp hkey
      simp [(hparts f hf).1.ofKey_eq]
    rw [ofValue, compiles_object_iff, hcatchAll, ofFields_eq_map, List.forall_mem_map]
    exact ⟨fun f hf => ih f hf (hparts f hf).2, by simp⟩

/-- An operator-free document compiles to a matcher that accepts, alone and within any object, the
values that are deeply equal to the document. -/
theorem matches_eq_deepEqual (interp : Interpretation) (hdocument : document.WellFormed)
    (hfree : document.OperatorFree) :
    ∃ m, (ofValue document).compile interp = .ok m ∧
      ∀ v, v.WellFormed → m.matchesAlone v = v.deepEqual document ∧
        ∀ parent, m.matchesIn parent v = v.deepEqual document := by
  obtain ⟨m, hm⟩ : (ofValue document).Compiles interp := compiles_ofValue hfree
  refine ⟨m, hm, ?_⟩
  intro v hv
  have hjudge : ∀ parent, m.judge parent v = v.deepEqual document := by
    intro parent
    rw [Bool.eq_iff_iff, judge_iff_follows hm,
      follows_eq_satisfies (distinctRequired_ofValue hdocument),
      satisfies_ofValue_iff hdocument hfree hv]
  exact ⟨hjudge none, fun parent => hjudge (some parent)⟩

/-- A key that looks like a reference and a string that looks like a catch-all stand for themselves.
An integer within may be written as a double, and no field may be left out. -/
theorem matches_nested_document :
    let one : FiniteDouble := ⟨false, ⟨1023 * blockSize, by decide⟩⟩
    ∃ m, (ofValue (.obj [("$a$", .str "**"),
        ("b", .obj [("c", .num (.int 1)), ("d", .null)])])).compile (fun _ _ => false) = .ok m ∧
      m.matchesAlone (.obj [("$a$", .str "**"),
        ("b", .obj [("c", .num (.float one)), ("d", .null)])]) = true ∧
      m.matchesAlone (.obj [("$a$", .str "**"), ("b", .obj [("c", .num (.int 1))])]) = false := by
  intro one
  have hfree : (Value.obj [("$a$", .str "**"),
      ("b", .obj [("c", .num (.int 1)), ("d", .null)])]).OperatorFree := by
    simp only [Value.OperatorFree, Value.FieldsOperatorFree, IsFieldName]
    decide +kernel
  obtain ⟨m, hm, hmatches⟩ := matches_eq_deepEqual (fun _ _ => false) (by decide +kernel) hfree
  refine ⟨m, hm, ?_, ?_⟩
  · rw [(hmatches _ (by decide +kernel)).1]
    decide +kernel
  · rw [(hmatches _ (by decide +kernel)).1]
    decide +kernel

end Schema

end ShapeMatch
