import ShapeMatch.Matcher

/-!
# Compiling schemas

A schema becomes a matcher once its operators have been read and its chains have been built.

## Main definitions

* `Schema.compile`: the matcher of a schema.
* `Schema.compileAll`: the matchers of several schemas joined by one connective.
* `Schema.compileElements`, `Schema.compileRules`: the item matcher of an array schema and the
  rules of an object schema.
-/

namespace ShapeMatch

namespace Schema

variable (interp : Interpretation)

/-- The matcher of a string: a reference to a field, a wildcard that accepts everything, or the
string itself. Other operators mean nothing in a value. -/
def compileString (s : String) : Matcher :=
  match siblingName? s with
  | some name => .sibling name
  | none =>
    if (leading? s).any (·.kind == .wildcard) then .plain Value.isAnything
    else .plain fun v => v.deepEqual (.str s)

/-- The matcher of a schema that has no parts to compile. -/
def compileLeaf (s : Schema) : Except SchemaError Matcher :=
  match s.shallowTest interp with
  | .ok test => .ok (.plain test)
  | .error e => .error (.compose e)

/-- Joins compiled schemas by a connective. -/
def joinCompiled (glue : Glue) (matchers : List Matcher) : Except SchemaError Matcher :=
  (Matcher.joinAll glue matchers).mapError .compose

mutual

/-- The matcher of a schema. The first schema that cannot be compiled, parts before the whole,
decides the error. -/
def compile : Schema → Except SchemaError Matcher
  | literal (.str s) => .ok (compileString s)
  | array (item :: items) => do
    let matchers ← compileItems (item :: items)
    let element ← joinCompiled .and matchers
    return .array element
  | object (entry :: entries) => do
    let compiled ← compileEntries (entry :: entries)
    let rules ← ObjectRules.ofEntries compiled
    return .object rules
  | leaf => compileLeaf interp leaf

/-- The matchers of several schemas. -/
def compileItems : List Schema → Except SchemaError (List Matcher)
  | [] => .ok []
  | item :: rest => do
    let matcher ← compile item
    let matchers ← compileItems rest
    return matcher :: matchers

/-- The entries of an object schema with their matchers. -/
def compileEntries : List (String × Schema) → Except SchemaError (List (Entry Matcher))
  | [] => .ok []
  | (key, schema) :: rest => do
    let matcher ← compile schema
    let entries ← compileEntries rest
    return ⟨key, schema, matcher⟩ :: entries

end

/-- The matchers of several schemas joined by a connective. -/
def compileAll (glue : Glue) (schemas : List Schema) : Except SchemaError Matcher := do
  joinCompiled glue (← compileItems interp schemas)

/-- The matcher that each item of an array must satisfy. There must be at least one schema. -/
def compileElements (items : List Schema) : Except SchemaError Matcher :=
  compileAll interp .and items

/-- The rules of an object schema. Without entries, only the empty object follows them. -/
def compileRules (entries : List (String × Schema)) : Except SchemaError (ObjectRules Matcher) := do
  ObjectRules.ofEntries (← compileEntries interp entries)

end Schema

end ShapeMatch
