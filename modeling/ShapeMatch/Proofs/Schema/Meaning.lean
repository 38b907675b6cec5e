import ShapeMatch.Rule
import ShapeMatch.Proofs.Chain
import ShapeMatch.Proofs.Object.Accounting

/-!
# What schemas mean

The meaning of a schema by recursion on the schema, without compilation, groups of wildcards or
search. A value is judged within an enclosing object, if there is one.

When rules are reconciled, an object must also have as many fields as it must have named ones. What
an object node asks is therefore a parameter: `Satisfies` leaves that bound out, `Follows` has it,
and they agree where no object node requires one name twice.

## Main definitions

* `Schema.Asks`: what a schema asks of a value.
* `Schema.Satisfies`, `Schema.Follows`: the meaning without and with the bound.
* `Schema.DistinctRequired`: no object node requires one name twice.

## Main statements

* `Schema.follows_eq_satisfies`: the two meanings agree if required names are distinct.
-/

namespace ShapeMatch

namespace Schema

/-! ## Induction -/

/-- Induction on a schema, with the claim for all parts of an object or an array. -/
@[elab_as_elim] theorem inductOn {motive : Schema → Prop} (s : Schema)
    (literal : ∀ v, motive (.literal v)) (capability : ∀ c, motive (.capability c))
    (chain : ∀ c, motive (.chain c))
    (object : ∀ entries, (∀ e ∈ entries, motive e.2) → motive (.object entries))
    (array : ∀ items, (∀ s ∈ items, motive s) → motive (.array items))
    (undefined : motive .undefined) : motive s :=
  @Schema.rec motive (fun entries => ∀ e ∈ entries, motive e.2) (fun items => ∀ s ∈ items, motive s)
    (fun e => motive e.2) literal capability chain object array undefined
    nofun (fun _ _ head tail => List.forall_mem_cons.2 ⟨head, tail⟩)
    nofun (fun _ _ head tail => List.forall_mem_cons.2 ⟨head, tail⟩)
    (fun _ _ h => h) s

/-! ## Meaning -/

/-- What a string asks. A reference asks for a field of the enclosing object that is equal. -/
def StringAsks (s : String) (parent : Option Object) (v : Value) : Prop :=
  match leading? s with
  | some ⟨.sibling, name, _⟩ =>
    ∃ o target, parent = some o ∧ o.get? name = some target ∧ target.deepEqual v = true
  | some ⟨.wildcard, _, _⟩ => True
  | _ => v.deepEqual (.str s) = true

section

variable (interp : Interpretation) (node : List Demand → Object → Prop)

mutual

/-- What a schema asks of a value, where `node` says what the entries of an object schema ask of
an object. -/
def Asks : Schema → Option Object → Value → Prop
  | literal (.str s), parent, v => StringAsks s parent v
  | literal (.obj _), _, v => ∃ o, v = .obj o
  | literal (.arr _), _, v => ∃ xs, v = .arr xs
  | literal expected, _, v => v.deepEqual expected = true
  | capability c, _, v => interp c v = true
  | chain c, _, v => c.formula interp v = true
  | object entries, _, v => ∃ o, v = .obj o ∧ (entries = [] ∨ node (demands entries o) o)
  | array items, _, v => ∃ xs, v = .arr xs ∧ ∀ x ∈ xs, AsksEach items x
  | undefined, _, _ => False

/-- What several schemas ask of one value without an enclosing object. -/
def AsksEach : List Schema → Value → Prop
  | [], _ => True
  | s :: rest, v => s.Asks none v ∧ AsksEach rest v

/-- What the entries of an object schema ask within an object. -/
def demands : List (String × Schema) → Object → List Demand
  | [], _ => []
  | (key, s) :: rest, o => ⟨.ofKey key, s.Asks (some o)⟩ :: demands rest o

end

/-- The meaning of a schema. -/
def Satisfies : Schema → Option Object → Value → Prop := Asks interp Accounts

/-- The meaning of a schema with a bound on the number of fields at each object. -/
def Follows : Schema → Option Object → Value → Prop :=
  Asks interp fun ds o => CoversRequired ds o ∧ Accounts ds o

end

variable {interp : Interpretation} {node : List Demand → Object → Prop}

theorem asksEach_iff {items : List Schema} {v : Value} :
    AsksEach interp node items v ↔ ∀ s ∈ items, s.Asks interp node none v := by
  induction items with
  | nil => simp [AsksEach]
  | cons s rest ih => simp [AsksEach, ih]

theorem demands_eq_map (entries : List (String × Schema)) (o : Object) :
    demands interp node entries o =
      entries.map fun e => ⟨.ofKey e.1, e.2.Asks interp node (some o)⟩ := by
  induction entries with
  | nil => rfl
  | cons e rest ih => rw [demands, ih, List.map_cons]

/-- An array schema asks that every item of an array follows every schema by itself. -/
theorem asks_array_iff {items : List Schema} {parent : Option Object} {v : Value} :
    (array items).Asks interp node parent v ↔
      ∃ xs, v = .arr xs ∧ ∀ x ∈ xs, ∀ s ∈ items, s.Asks interp node none x := by
  simp only [Asks, asksEach_iff]

theorem asks_object_iff {entries : List (String × Schema)} {parent : Option Object} {v : Value} :
    (object entries).Asks interp node parent v ↔
      ∃ o, v = .obj o ∧ (entries = [] ∨ node (demands interp node entries o) o) := by
  rw [Asks]

variable {node' : List Demand → Object → Prop}

/-- What a literal asks has nothing to do with objects that follow entries. -/
theorem asks_literal (v : Value) :
    (literal v).Asks interp node = (literal v).Asks interp node' := by
  funext parent x
  cases v <;> simp only [Asks]

theorem asks_array_congr {items items' : List Schema}
    (h : ∀ x, (∀ s ∈ items, s.Asks interp node none x) ↔ ∀ s ∈ items', s.Asks interp node' none x) :
    (array items).Asks interp node = (array items').Asks interp node' := by
  funext parent v
  rw [eq_iff_iff, asks_array_iff, asks_array_iff]
  simp only [h]

theorem asks_object_congr {entries entries' : List (String × Schema)}
    (hnil : entries = [] ↔ entries' = [])
    (h : ∀ o, node (demands interp node entries o) o ↔ node' (demands interp node' entries' o) o) :
    (object entries).Asks interp node = (object entries').Asks interp node' := by
  funext parent v
  rw [eq_iff_iff, asks_object_iff, asks_object_iff]
  simp only [hnil, h]

/-! ## Distinct required names -/

/-- The names that the entries of an object schema require. -/
def requiredNames (entries : List (String × Schema)) : List String :=
  entries.filterMap fun e => (KeyPattern.ofKey e.1).requiredName?

mutual

/-- No object node requires one name twice. -/
def DistinctRequired : Schema → Prop
  | object entries => (requiredNames entries).Nodup ∧ DistinctInEntries entries
  | array items => DistinctInItems items
  | _ => True

def DistinctInItems : List Schema → Prop
  | [] => True
  | s :: rest => s.DistinctRequired ∧ DistinctInItems rest

def DistinctInEntries : List (String × Schema) → Prop
  | [] => True
  | (_, s) :: rest => s.DistinctRequired ∧ DistinctInEntries rest

end

theorem distinctInItems_iff {items : List Schema} :
    DistinctInItems items ↔ ∀ s ∈ items, s.DistinctRequired := by
  induction items with
  | nil => simp [DistinctInItems]
  | cons s rest ih => simp [DistinctInItems, ih]

theorem distinctInEntries_iff {entries : List (String × Schema)} :
    DistinctInEntries entries ↔ ∀ e ∈ entries, e.2.DistinctRequired := by
  induction entries with
  | nil => simp [DistinctInEntries]
  | cons e rest ih => rw [DistinctInEntries, ih, List.forall_mem_cons]

theorem requiredNames_eq (entries : List (String × Schema)) (o : Object) :
    requiredNames entries =
      (demands interp node entries o).filterMap fun d => d.key.requiredName? := by
  rw [demands_eq_map, List.filterMap_map]
  rfl

/-- The two meanings agree if required names are distinct. -/
theorem follows_eq_satisfies {s : Schema} (h : s.DistinctRequired) :
    s.Follows interp = s.Satisfies interp := by
  induction s using inductOn with
  | literal v => exact asks_literal v
  | capability | chain | undefined => rfl
  | object entries ih =>
    rw [DistinctRequired, distinctInEntries_iff] at h
    obtain ⟨hnodup, hentries⟩ := h
    refine asks_object_congr Iff.rfl ?_
    intro o
    have hdemands : demands interp (fun ds o => CoversRequired ds o ∧ Accounts ds o) entries o =
        demands interp Accounts entries o := by
      rw [demands_eq_map, demands_eq_map]
      exact List.map_congr_left fun e he => congrArg (Demand.mk _ <| · (some o))
        (ih e he (hentries e he))
    rw [hdemands]
    rw [requiredNames_eq entries o] at hnodup
    exact ⟨fun h => h.2, fun h => ⟨coversRequired_of_nodup hnodup h.named, h⟩⟩
  | array items ih =>
    rw [DistinctRequired, distinctInItems_iff] at h
    exact asks_array_congr fun x => forall₂_congr fun s hs =>
      iff_of_eq (congrFun (congrFun (ih s hs (h s hs)) none) x)

end Schema

end ShapeMatch
