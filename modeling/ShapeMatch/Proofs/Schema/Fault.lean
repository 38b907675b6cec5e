import ShapeMatch.Proofs.Chain.Evaluation
import ShapeMatch.Proofs.KeyPattern
import ShapeMatch.Proofs.Schema.Compile

/-!
# What keeps a schema from being compiled

A schema cannot be compiled when a chain within it has no further steps or an object node has
several catch-alls. Compilation stops at the first such node in post-order: the parts of a node come
before the node, and earlier parts before later ones.

## Main definitions

* `Schema.postorder`: the nodes of a schema, parts before the whole.
* `Schema.fault?`: what is wrong with a node by itself.

## Main statements

* `Schema.errorOf?_compile`: the error of compilation is the first fault in post-order.
-/

namespace ShapeMatch

variable {interp : Interpretation}

namespace Schema

/-! ## Nodes -/

mutual

/-- The nodes of a schema in post-order: those of its parts from left to right, then itself. -/
def postorder : Schema → List Schema
  | object entries => postorderOfEntries entries ++ [object entries]
  | array items => postorderOfItems items ++ [array items]
  | leaf => [leaf]

/-- The nodes of several schemas. -/
def postorderOfItems : List Schema → List Schema
  | [] => []
  | s :: rest => s.postorder ++ postorderOfItems rest

/-- The nodes of the schemas under keys. -/
def postorderOfEntries : List (String × Schema) → List Schema
  | [] => []
  | (_, s) :: rest => s.postorder ++ postorderOfEntries rest

end

theorem postorderOfItems_eq_flatMap (items : List Schema) :
    postorderOfItems items = items.flatMap postorder := by
  induction items with
  | nil => rfl
  | cons s rest ih => rw [postorderOfItems, ih, List.flatMap_cons]

theorem postorderOfEntries_eq_flatMap (entries : List (String × Schema)) :
    postorderOfEntries entries = entries.flatMap fun e => e.2.postorder := by
  induction entries with
  | nil => rfl
  | cons e rest ih => rw [postorderOfEntries, ih, List.flatMap_cons]

/-- The number of catch-alls among the keys of an object schema. -/
def catchAllCount (entries : List (String × Schema)) : Nat :=
  entries.countP fun e => e.1 = "**" ∨ e.1 = "(**)"

/-- What is wrong with a node by itself, its parts left aside: a chain that cannot be built, or an
object with several catch-alls. -/
def fault? : Schema → Option SchemaError
  | chain c =>
    if c.toStep.chains.any Chain.isEmpty then some (.compose .notInitialized) else none
  | object entries =>
    if 1 < catchAllCount entries then some (.multipleCatchAll (catchAllCount entries)) else none
  | _ => none

/-- The fault of the first node in post-order that has one. -/
def firstFault? (s : Schema) : Option SchemaError := s.postorder.findSome? fault?

theorem firstFault?_chain (c : Chain) : (chain c).firstFault? = (chain c).fault? := by
  simp [firstFault?, postorder]

theorem firstFault?_array (items : List Schema) :
    (array items).firstFault? = items.findSome? firstFault? := by
  have hitems : (postorderOfItems items).findSome? fault? = items.findSome? firstFault? := by
    induction items with
    | nil => rfl
    | cons s rest ih =>
      rw [postorderOfItems, List.findSome?_append, ih, findSome?_cons_eq_or, firstFault?]
  rw [firstFault?, postorder, List.findSome?_append, hitems]
  exact Option.or_none

theorem firstFault?_object (entries : List (String × Schema)) :
    (object entries).firstFault? =
      (entries.findSome? fun e => e.2.firstFault?).or (object entries).fault? := by
  have hentries : (postorderOfEntries entries).findSome? fault? =
      entries.findSome? fun e => e.2.firstFault? := by
    induction entries with
    | nil => rfl
    | cons e rest ih =>
      rw [postorderOfEntries, List.findSome?_append, ih, findSome?_cons_eq_or, firstFault?]
  rw [firstFault?, postorder, List.findSome?_append, hentries, List.findSome?_singleton]

/-! ## Errors of compilation -/

theorem errorOf?_compileItems (items : List Schema) :
    errorOf? (compileItems interp items) =
      items.findSome? fun s => errorOf? (s.compile interp) := by
  induction items with
  | nil => rfl
  | cons s rest ih =>
    rw [compileItems, errorOf?_bind fun _ _ => errorOf?_bind_pure, ih, findSome?_cons_eq_or]

theorem errorOf?_compileEntries (entries : List (String × Schema)) :
    errorOf? (compileEntries interp entries) =
      entries.findSome? fun e => errorOf? (e.2.compile interp) := by
  induction entries with
  | nil => rfl
  | cons e rest ih =>
    rw [compileEntries, errorOf?_bind fun _ _ => errorOf?_bind_pure, ih, findSome?_cons_eq_or]

/-- Joining schemas fails as the first of them does that fails. -/
theorem errorOf?_compileAll {glue : Glue} {schemas : List Schema} (hne : schemas ≠ []) :
    errorOf? (compileAll interp glue schemas) =
      schemas.findSome? fun s => errorOf? (s.compile interp) := by
  rw [← errorOf?_compileItems, compileAll]
  refine (errorOf?_bind fun matchers hmatchers => ?_).trans Option.or_none
  -- there is a matcher for the first schema, so there are matchers to join
  cases compileItems_eq_ok_iff.mp hmatchers with
  | nil => contradiction
  | cons => rfl

theorem errorOf?_compileLeaf (s : Schema) :
    errorOf? (compileLeaf interp s) = (errorOf? (s.shallowTest interp)).map .compose := by
  unfold compileLeaf
  cases s.shallowTest interp <;> rfl

theorem length_catchAllKeys (entries : List (String × Schema)) :
    (catchAllKeys entries).length = catchAllCount entries := by
  rw [catchAllKeys, catchAllCount, ← List.countP_eq_length_filter, List.countP_map]
  refine List.countP_congr fun e _ => ?_
  simp [KeyPattern.target_ofKey_eq_catchAll_iff]

/-- Rules cannot be made of compiled entries when the object node has a fault. -/
theorem errorOf?_ofEntries {entries : List (String × Schema)} {compiled : List (Entry Matcher)}
    (h : compileEntries interp entries = .ok compiled) :
    errorOf? (ObjectRules.ofEntries compiled) = (object entries).fault? := by
  obtain ⟨rfl, -⟩ := compileEntries_eq_ok_iff.mp h
  rw [fault?, ← length_catchAllKeys, ← length_catchAlls, ObjectRules.ofEntries]
  split <;> rfl

/-- If the schemas of entries fail with their first faults, so does compiling rules from them. -/
theorem errorOf?_compileRules {entries : List (String × Schema)}
    (h : ∀ e ∈ entries, errorOf? (e.2.compile interp) = e.2.firstFault?) :
    errorOf? (compileRules interp entries) = (object entries).firstFault? := by
  rw [firstFault?_object, ← findSome?_congr h, ← errorOf?_compileEntries, compileRules]
  exact errorOf?_bind fun _ hcompiled => errorOf?_ofEntries hcompiled

/-- The error of compilation is the first fault in post-order. -/
theorem errorOf?_compile (s : Schema) : errorOf? (s.compile interp) = s.firstFault? := by
  induction s using inductOn with
  | literal v => cases v <;> rfl
  | capability c => rfl
  | undefined => rfl
  | chain c =>
    have hbuild : errorOf? (c.build interp) = c.toStep.chains.findSome? Chain.fault? :=
      Step.errorOf?_build c.toStep
    rw [compile_eq_compileLeaf rfl, errorOf?_compileLeaf, shallowTest, hbuild,
      findSome?_chain_fault?, firstFault?_chain, fault?]
    cases c.toStep.chains.any Chain.isEmpty <;> rfl
  | object entries ih =>
    cases entries with
    | nil => rfl
    | cons e rest => rw [compile_object_cons, errorOf?_bind_pure, errorOf?_compileRules ih]
  | array items ih =>
    cases items with
    | nil => rfl
    | cons s rest =>
      rw [compile_array_cons, errorOf?_bind_pure, compileElements, errorOf?_compileAll (by simp),
        findSome?_congr ih, firstFault?_array]

/-! ## Faults -/

theorem fault?_chain_eq_some_iff {c : Chain} {e : SchemaError} :
    (chain c).fault? = some e ↔
      (∃ d ∈ c.toStep.chains, d.steps = []) ∧ e = .compose .notInitialized := by
  simp [fault?, Chain.isEmpty, eq_comm (a := e)]

theorem fault?_object_eq_some_iff {entries : List (String × Schema)} {e : SchemaError} :
    (object entries).fault? = some e ↔
      2 ≤ catchAllCount entries ∧ e = .multipleCatchAll (catchAllCount entries) := by
  simp [fault?, eq_comm (a := e), Nat.lt_iff_add_one_le]

/-- Some chain within a schema has no further steps, or some object node has two or more
catch-alls. -/
def Malformed (s : Schema) : Prop :=
  (∃ c, chain c ∈ s.postorder ∧ ∃ d ∈ c.toStep.chains, d.steps = []) ∨
    ∃ entries, object entries ∈ s.postorder ∧ 2 ≤ catchAllCount entries

theorem exists_firstFault?_iff {s : Schema} : (∃ e, s.firstFault? = some e) ↔ s.Malformed := by
  constructor
  · rintro ⟨e, he⟩
    obtain ⟨node, hmem, hnode⟩ := List.exists_of_findSome?_eq_some he
    cases node with
    | chain c => exact .inl ⟨c, hmem, (fault?_chain_eq_some_iff.mp hnode).1⟩
    | object entries => exact .inr ⟨entries, hmem, (fault?_object_eq_some_iff.mp hnode).1⟩
    | _ => cases hnode
  · intro h
    have hfault : ∃ node ∈ s.postorder, ∃ e, node.fault? = some e := by
      rcases h with ⟨c, hmem, hc⟩ | ⟨entries, hmem, hcount⟩
      · exact ⟨chain c, hmem, _, fault?_chain_eq_some_iff.mpr ⟨hc, rfl⟩⟩
      · exact ⟨object entries, hmem, _, fault?_object_eq_some_iff.mpr ⟨hcount, rfl⟩⟩
    rw [← Option.ne_none_iff_exists', firstFault?, ne_eq, List.findSome?_eq_none_iff]
    obtain ⟨node, hmem, e, he⟩ := hfault
    intro hnone
    cases (hnone node hmem).symm.trans he

/-- A schema fails to compile exactly when it is malformed. The error is then that of the first
node in post-order with a fault, and it is never that an array has no schemas. -/
theorem compile_fails_at_first_fault (interp : Interpretation) (s : Schema) :
    ((∃ e, s.compile interp = .error e) ↔ s.Malformed) ∧
      (∀ e, s.compile interp = .error e ↔
        ∃ before node after, s.postorder = before ++ node :: after ∧
          (∀ t ∈ before, t.fault? = none) ∧ node.fault? = some e) ∧
      s.compile interp ≠ .error (.compose .emptyList) := by
  simp only [← errorOf?_eq_some_iff, errorOf?_compile, ne_eq]
  refine ⟨exists_firstFault?_iff, ?_, ?_⟩
  · intro e
    rw [firstFault?, List.findSome?_eq_some_iff]
    simp only [and_comm]
  · intro h
    obtain ⟨node, -, hnode⟩ := List.exists_of_findSome?_eq_some h
    cases node with
    | chain c => cases (fault?_chain_eq_some_iff.mp hnode).2
    | object entries => cases (fault?_object_eq_some_iff.mp hnode).2
    | _ => cases hnode

/-- The catch-alls of an inner object are found before an empty chain that comes after it, and
before those of the outer object. -/
example : errorOf? (compile (fun _ _ => true) (object
    [("**", .array [.object [("**", .undefined), ("(**)", .undefined), ("**", .undefined)]]),
      ("(**)", .chain (.start (.capability ⟨0⟩)))])) = some (.multipleCatchAll 3) := by
  decide +kernel

end Schema

end ShapeMatch
