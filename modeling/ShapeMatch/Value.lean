import ShapeMatch.Number.Text

/-!
# Document values

A document is a tree of scalars, arrays and objects. An object is a list of fields that its
operations keep sorted by key, without repetition; keys compare by code point.

## Main definitions

* `Value`, `Object`: a document and its fields.
* `Object.get?`, `Object.insert`, `Object.ofList`: look-up, and building with the later of two
  equal keys kept.
* `Object.Sorted`: keys strictly increase.
-/

namespace ShapeMatch

/-- A document. The fields of an object stand in key order. -/
inductive Value where
  | null
  | bool (b : Bool)
  | num (n : Number)
  | str (s : String)
  | arr (items : List Value)
  | obj (fields : List (String × Value))
deriving Repr

/-- The fields of an object, in key order. -/
abbrev Object := List (String × Value)

namespace Object

/-- The value under `key`, if there is one. -/
def get? (o : Object) (key : String) : Option Value := o.lookup key

/-- The keys, in order. -/
def keys (o : Object) : List String := o.map Prod.fst

/-- Puts a field in its place, replacing one of the same key. -/
def insert (key : String) (value : Value) : Object → Object
  | [] => [(key, value)]
  | (k, v) :: rest =>
    if key = k then (key, value) :: rest
    else if key < k then (key, value) :: (k, v) :: rest
    else (k, v) :: insert key value rest

/-- The object with the given fields, the later of two with equal keys. -/
def ofList (fields : List (String × Value)) : Object :=
  fields.foldl (fun o field => insert field.1 field.2 o) []

/-- Keys strictly increase, so no key occurs twice. -/
def Sorted (o : Object) : Prop := o.Pairwise fun a b => a.1 < b.1

end Object

end ShapeMatch
