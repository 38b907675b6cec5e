import ShapeMatch.Value

/-!
# Equality of values

Values are compared structurally, with the comparison of numbers as a parameter. Objects are
equal when they have equally many fields and each field of the first has an equal one under the
same key in the second.

## Main definitions

* `Value.eqBy`: structural equality over a comparison of numbers.
* `Value.strictEq`: integers and doubles differ.
* `Value.deepEqual`: numbers of either kind compare as doubles.
-/

namespace ShapeMatch

namespace Value

variable (numEq : Number → Number → Bool)

mutual

/-- Structural equality over a comparison of numbers. -/
def eqBy : Value → Value → Bool
  | null, null => true
  | bool a, bool b => a == b
  | num m, num n => numEq m n
  | str s, str t => s == t
  | arr xs, arr ys => itemsEqBy xs ys
  | obj xs, obj ys => xs.length == ys.length && fieldsEqBy xs ys
  | _, _ => false

/-- Equality of items, position by position. -/
def itemsEqBy : List Value → List Value → Bool
  | [], [] => true
  | x :: xs, y :: ys => eqBy x y && itemsEqBy xs ys
  | _, _ => false

/-- Each field of the first object has an equal one under its key in the second. -/
def fieldsEqBy : List (String × Value) → Object → Bool
  | [], _ => true
  | (key, x) :: rest, ys =>
    (match ys.get? key with
      | some y => eqBy x y
      | none => false) && fieldsEqBy rest ys

end

/-- Equality under which an integer never equals a double. -/
def strictEq : Value → Value → Bool := eqBy Number.strictEq

/-- Equality under which numbers of either kind compare as doubles. -/
def deepEqual : Value → Value → Bool := eqBy Number.looseEq

end Value

end ShapeMatch
