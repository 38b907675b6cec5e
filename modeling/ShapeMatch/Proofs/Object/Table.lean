import ShapeMatch.Proofs.Object.Arrangement
import ShapeMatch.Compile

/-!
# Tables of tests

Rules can be kept as lists of tests: those of named fields, those of wildcards group by group, and
that of a catch-all. A group is then any list, and nothing in its form gives it a first test. Tables
are made here from entries in their own way, with a checked access to the operators of a key, and
they are the tables of the rules that are made from the same entries.

## Main definitions

* `TestTable`, `TestTable.ofRules`: tables, and that of given rules.
* `KeyPattern.ofKey?`: reads a key with a checked access to its operators.
* `TestTable.ofEntries?`, `TestTable.compile?`: the table of entries and of an object schema.

## Main statements

* `TestTable.compile?_eq`: compiling an object schema to a table gives the table of its rules.
-/

namespace ShapeMatch

variable {α : Type}

/-- The only item of a list is both its last and its first. -/
theorem getLast?_eq_head? {xs : List α} (h : xs.length ≤ 1) : xs.getLast? = xs.head? := by
  match xs, h with
  | [], _ => rfl
  | [x], _ => rfl

theorem mapM_some {ι : Type} (f : ι → α) (xs : List ι) :
    xs.mapM (fun x => some (f x)) = some (xs.map f) :=
  List.mapM_pure

/-- Reads a key. Its first operator is looked up by its number. -/
def KeyPattern.ofKey? (key : String) : Option KeyPattern :=
  let tokens := recognize key
  let optional := tokens[0]?.any (·.kind == .optional)
  let operator := if optional then tokens[1]? else tokens[0]?
  match operator.map OperatorToken.kind with
  | some .wildcard => some ⟨optional, .wildcard⟩
  | some .catchAll => some ⟨optional, .catchAll⟩
  | _ =>
    if optional then do
      let token ← tokens[0]?
      return ⟨optional, .field token.capture⟩
    else some ⟨optional, .field key⟩

/-- The operators of a key are found where they are looked up. -/
theorem KeyPattern.ofKey?_eq (key : String) : ofKey? key = some (ofKey key) := by
  unfold ofKey? ofKey
  match recognize key with
  | [] => rfl
  | [⟨kind, _, _⟩] => cases kind <;> rfl
  | ⟨kind, _, _⟩ :: ⟨inner, _, _⟩ :: _ => cases kind <;> cases inner <;> rfl

/-- Rules as lists of tests. -/
structure TestTable (α : Type) where
  bound : List (Test α)
  groups : List (List (Test α))
  catchAll : Option (Test α)

namespace TestTable

/-- The tests of a group of wildcards. -/
def testsOf (g : WildcardGroup α) : List (Test α) :=
  g.members.map (WildcardRule.toTest (.finite 1))

/-- The table of given rules. -/
def ofRules (rules : ObjectRules α) : TestTable α where
  bound := rules.fields.map FieldRule.toTest
  groups := rules.groups.map testsOf
  catchAll := rules.catchAll.map (WildcardRule.toTest .unbounded)

/-- Each group has a first test. -/
theorem ne_nil_of_mem_groups {rules : ObjectRules α} {group : List (Test α)}
    (h : group ∈ (ofRules rules).groups) : group ≠ [] := by
  obtain ⟨g, -, rfl⟩ := List.mem_map.mp h
  exact List.cons_ne_nil _ _

/-! ## Tables of entries -/

/-- Puts a test into the first group whose predicate it shares, or into a new one at the end. Each
group comes with the schema of its first test. -/
def place (schema : Schema) (test : Test α) :
    List (Schema × List (Test α)) → List (Schema × List (Test α))
  | [] => [(schema, [test])]
  | (s, group) :: rest =>
    if s.samePredicate schema then (s, group ++ [test]) :: rest
    else (s, group) :: place schema test rest

/-- Tests grouped by predicate, groups in order of first occurrence. -/
def groupTests (tests : List (Schema × Test α)) : List (List (Test α)) :=
  (tests.foldl (fun groups t => place t.1 t.2 groups) []).map (·.2)

/-- The table of given tests, of which at most one may be a catch-all. -/
def ofTests (tests : List (Schema × Test α)) : Except SchemaError (TestTable α) :=
  let catchAlls := (tests.map (·.2)).filter Test.isCatchAll
  if 1 < catchAlls.length then .error (.multipleCatchAll catchAlls.length)
  else .ok
    { bound := (tests.map (·.2)).filter Test.isNamed
      groups := groupTests (tests.filter (·.2.isWildcard))
      catchAll := catchAlls.getLast? }

/-- The schema of an entry with the test that it makes. -/
def testOf? (e : Entry α) : Option (Schema × Test α) := do
  let pattern ← KeyPattern.ofKey? e.key
  return (e.schema, pattern.toTest e.key e.value)

/-- The table of given entries. -/
def ofEntries? (entries : List (Entry α)) : Option (Except SchemaError (TestTable α)) := do
  let tests ← entries.mapM testOf?
  return ofTests tests

/-- The table of an object schema. -/
def compile? (interp : Interpretation) (entries : List (String × Schema)) :
    Option (Except SchemaError (TestTable Matcher)) :=
  match Schema.compileEntries interp entries with
  | .ok compiled => ofEntries? compiled
  | .error e => some (.error e)

theorem testOf?_eq (e : Entry α) : testOf? e = some (e.schema, e.toTest) := by
  rw [testOf?, KeyPattern.ofKey?_eq]
  rfl

theorem mapM_testOf? (entries : List (Entry α)) :
    entries.mapM testOf? = some (entries.map fun e => (e.schema, e.toTest)) := by
  rw [funext testOf?_eq]
  exact mapM_some _ _

theorem filter_isNamed (entries : List (Entry α)) :
    (entries.map Entry.toTest).filter Test.isNamed =
      (entries.filterMap Entry.fieldRule?).map FieldRule.toTest := by
  rw [List.map_filterMap, filterMap_eq_map_filter Entry.fieldRule?_map_toTest, List.filter_map]
  rfl

theorem filter_isCatchAll (entries : List (Entry α)) :
    (entries.map Entry.toTest).filter Test.isCatchAll =
      (entries.filterMap Entry.catchAll?).map (WildcardRule.toTest .unbounded) := by
  rw [List.map_filterMap, filterMap_eq_map_filter Entry.catchAll?_map_toTest, List.filter_map]
  rfl

theorem filter_isWildcard (entries : List (Entry α)) :
    (entries.map fun e => (e.schema, e.toTest)).filter (·.2.isWildcard) =
      (entries.filterMap Entry.wildcard?).map fun w => (w.1, w.2.toTest (.finite 1)) := by
  rw [filterMap_eq_map_filter Entry.wildcard?_eq, List.map_map, List.filter_map]
  refine List.map_congr_left fun e he => ?_
  simp [Entry.toTest_toWildcard (List.mem_filter.mp he).2]

/-- Tests are grouped as wildcards are. -/
theorem place_map_testsOf (s : Schema) (r : WildcardRule α)
    (groups : List (Schema × WildcardGroup α)) :
    place s (r.toTest (.finite 1)) (groups.map fun g => (g.1, testsOf g.2)) =
      (WildcardGroup.place s r groups).map fun g => (g.1, testsOf g.2) := by
  induction groups with
  | nil => rfl
  | cons g rest ih =>
    rw [List.map_cons, place, WildcardGroup.place]
    by_cases h : g.1.samePredicate s = true
    · simp [h, testsOf, WildcardGroup.members]
    · simp [h, ih]

theorem groupTests_map (ws : List (Schema × WildcardRule α)) :
    groupTests (ws.map fun w => (w.1, w.2.toTest (.finite 1))) =
      (WildcardGroup.ofWildcards ws).map testsOf := by
  have hfold (groups : List (Schema × WildcardGroup α)) :
      ws.foldl (fun groups w => place w.1 (w.2.toTest (.finite 1)) groups)
          (groups.map fun g => (g.1, testsOf g.2)) =
        (ws.foldl (fun groups w => WildcardGroup.place w.1 w.2 groups) groups).map
          fun g => (g.1, testsOf g.2) := by
    induction ws generalizing groups with
    | nil => rfl
    | cons w rest ih => rw [List.foldl_cons, place_map_testsOf, ih, List.foldl_cons]
  have hfold := congrArg (List.map (·.2)) (hfold [])
  rw [List.map_map] at hfold
  rw [groupTests, WildcardGroup.ofWildcards, List.foldl_map, List.map_map]
  exact hfold

/-- Entries have the table of the rules that are made from them. -/
theorem ofEntries?_eq (entries : List (Entry α)) :
    ofEntries? entries = some ((ObjectRules.ofEntries entries).map ofRules) := by
  have htests : (entries.map fun e => (e.schema, e.toTest)).map (·.2) =
      entries.map Entry.toTest := by
    rw [List.map_map]
    rfl
  rw [ofEntries?, mapM_testOf?, Option.bind_eq_bind, Option.bind_some, ofTests, htests,
    filter_isCatchAll, filter_isNamed, filter_isWildcard, groupTests_map, List.length_map,
    ObjectRules.ofEntries]
  by_cases h : 1 < (entries.filterMap Entry.catchAll?).length
  · simp only [if_pos h]
    rfl
  · simp only [if_neg h, List.getLast?_map, getLast?_eq_head? (Nat.le_of_not_lt h)]
    rfl

theorem compile?_eq (interp : Interpretation) (entries : List (String × Schema)) :
    compile? interp entries = some ((Schema.compileRules interp entries).map ofRules) := by
  unfold compile? Schema.compileRules
  cases Schema.compileEntries interp entries with
  | error e => rfl
  | ok compiled => exact ofEntries?_eq compiled

end TestTable

end ShapeMatch
