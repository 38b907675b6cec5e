import ShapeMatch.Chain
import ShapeMatch.Value.Equality
import ShapeMatch.Value.Shape

/-!
# Schemas

A schema describes the shape of a document. Keys and strings are kept as written; operators in
them are read when the schema is compiled.

## Main definitions

* `Schema`: the description of a shape.
* `Schema.ofValue`: the schema that a document is.
* `Schema.shallowTest`: the test of a schema that looks at no field or item.
* `Schema.samePredicate`: whether two schemas denote one predicate.
-/

namespace ShapeMatch

/-- The description of a shape. -/
inductive Schema where
  /-- Equal to a value; a string may be an operator. -/
  | literal (v : Value)
  /-- A test supplied from outside. -/
  | capability (c : Capability)
  /-- A chain of tests. -/
  | chain (c : Chain)
  /-- An object whose fields follow the entries; without entries, any object. -/
  | object (entries : List (String × Schema))
  /-- An array each of whose items follows every schema; without schemas, any array. -/
  | array (items : List Schema)
  /-- No value at all. -/
  | undefined
deriving Repr

/-- Why a schema cannot be compiled. -/
inductive SchemaError where
  | multipleCatchAll (count : Nat)
  | compose (e : ComposeError)
deriving DecidableEq, Repr

def SchemaError.message : SchemaError → String
  | multipleCatchAll count =>
    "object schema declares " ++ toString count ++
      " catch-all (`**`) keys; at most one is permitted"
  | compose e => "composer chain in schema is unusable: " ++ e.message

namespace Schema

mutual

/-- The schema that a document is: objects and arrays become schemas of their own, and scalars
stand for themselves. -/
def ofValue : Value → Schema
  | .obj fields => .object (ofFields fields)
  | .arr items => .array (ofItems items)
  | .null => .literal .null
  | .bool b => .literal (.bool b)
  | .num n => .literal (.num n)
  | .str s => .literal (.str s)

def ofItems : List Value → List Schema
  | [] => []
  | v :: rest => ofValue v :: ofItems rest

def ofFields : List (String × Value) → List (String × Schema)
  | [] => []
  | (key, v) :: rest => (key, ofValue v) :: ofFields rest

end

/-- The schema of a string, which may be an operator. -/
def ofString (s : String) : Schema := .literal (.str s)

/-- Whether a schema is a test or a chain of tests. -/
def isFunction : Schema → Bool
  | capability _ | chain _ => true
  | _ => false

/-- Whether a schema is a leaf: everything but objects and arrays that hold something. -/
def isStopValue : Schema → Bool
  | object entries => entries.isEmpty
  | array items => items.isEmpty
  | literal (.obj fields) => fields.isEmpty
  | literal (.arr items) => items.isEmpty
  | literal _ | capability _ | chain _ | undefined => true

/-- The test of a schema that looks at no field or item: the kind for objects and arrays, deep
equality for other literals. -/
def shallowTest (interp : Interpretation) : Schema → Except ComposeError (Value → Bool)
  | object _ | literal (.obj _) => .ok Value.isObject
  | array _ | literal (.arr _) => .ok Value.isArray
  | undefined => .ok fun _ => false
  | capability c => .ok (interp c)
  | chain c => c.build interp
  | literal expected => .ok fun v => v.deepEqual expected

mutual

/-- Whether two schemas denote one predicate: capabilities by identity, everything else by
structure. -/
def samePredicate : Schema → Schema → Bool
  | literal v, literal w => v.deepEqual w
  | capability c, capability d => c == d
  | chain c, chain d => c.sameAs d
  | object es, object fs => sameEntries es fs
  | array as, array bs => sameItems as bs
  | undefined, undefined => true
  | _, _ => false

/-- Entries agree when their keys and schemas do, in order. -/
def sameEntries : List (String × Schema) → List (String × Schema) → Bool
  | [], [] => true
  | (k, a) :: as, (l, b) :: bs => k == l && a.samePredicate b && sameEntries as bs
  | _, _ => false

def sameItems : List Schema → List Schema → Bool
  | [], [] => true
  | a :: as, b :: bs => a.samePredicate b && sameItems as bs
  | _, _ => false

end

end Schema

end ShapeMatch
