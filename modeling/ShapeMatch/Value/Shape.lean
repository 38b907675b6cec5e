import ShapeMatch.Value

/-!
# Shape tests on values

The structural tests that schemas are built from. A missing value is a property of a look-up,
so `isUndefined` takes an optional value.
-/

namespace ShapeMatch

/-- The six kinds of value. -/
inductive Kind where
  | null
  | bool
  | number
  | string
  | array
  | object
deriving DecidableEq, Repr

namespace Value

def kind : Value → Kind
  | null => .null
  | bool _ => .bool
  | num _ => .number
  | str _ => .string
  | arr _ => .array
  | obj _ => .object

def isArray (v : Value) : Bool := v.kind == .array

def isObject (v : Value) : Bool := v.kind == .object

def isString (v : Value) : Bool := v.kind == .string

def isBoolean (v : Value) : Bool := v.kind == .bool

def isNumber (v : Value) : Bool := v.kind == .number

/-- Whether a look-up found nothing. -/
def isUndefined (found : Option Value) : Bool := found.isNone

/-- Whether a value holds nothing. Scalars other than strings hold nothing. -/
def isEmpty : Value → Bool
  | str s => s.isEmpty
  | arr items => items.isEmpty
  | obj fields => fields.isEmpty
  | null | bool _ | num _ => true

def isNonEmpty (v : Value) : Bool := !v.isEmpty

/-- Holds of every value. -/
def isAnything (_ : Value) : Bool := true

end Value

end ShapeMatch
