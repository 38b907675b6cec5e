import ShapeMatch.Number.Decimal

/-!
# Numbers of a document and their text

A document number is an integer or a finite double, and the two kinds stay apart: `1` and `1.0`
are different numbers that denote the same value.

## Main definitions

* `Number`: an integer or a finite double.
* `Number.strictEq`, `Number.looseEq`: equality within a kind, and equality after conversion to
  doubles.
* `DecimalLayout`, `FiniteDouble.text`: how a double is written.
* `Number.text`: decimal text, in which a positive exponent has a sign.
-/

namespace ShapeMatch

/-- How a decimal is written. With its point after `p` digits, `p` being negative for leading
zeros, it is positional when `leastPoint ≤ p ≤ mostPoint`, and has an exponent otherwise, before
which a plus sign may stand. -/
structure DecimalLayout where
  leastPoint : Int
  mostPoint : Int
  plusSign : Bool

namespace DecimalLayout

/-- Doubles are positional from `1e-5` up to below `1e16`, and always show a point or an
exponent. -/
def bare : DecimalLayout := ⟨-4, 16, false⟩

/-- As `bare`, with the sign of an exponent always shown. -/
def signed : DecimalLayout := { bare with plusSign := true }

end DecimalLayout

/-- The text of a decimal under a layout. -/
def Decimal.render (layout : DecimalLayout) (d : Decimal) : List Char :=
  let digits := Decimal.digits d.coefficient
  let point : Int := digits.length + d.exponent
  if layout.leastPoint ≤ point ∧ point ≤ layout.mostPoint then
    if 0 ≤ d.exponent then
      digits ++ List.replicate d.exponent.toNat '0' ++ ['.', '0']
    else if 0 < point then
      digits.take point.toNat ++ '.' :: digits.drop point.toNat
    else
      '0' :: '.' :: (List.replicate (-point).toNat '0' ++ digits)
  else
    let fraction := digits.drop 1
    let sign := if layout.plusSign && 0 < point then ['+'] else []
    digits.take 1 ++ (if fraction.isEmpty then [] else '.' :: fraction) ++
      'e' :: sign ++ (toString (point - 1)).toList

/-- The shortest text that reads back as `x`. -/
def FiniteDouble.text (layout : DecimalLayout) (x : FiniteDouble) : String :=
  String.ofList ((if x.negative then ['-'] else []) ++ x.shortest.render layout)

/-- A number of a document. -/
inductive Number where
  | int (i : Int)
  | float (x : FiniteDouble)
deriving DecidableEq, Repr

namespace Number

/-- Equality within a kind. An integer never equals a double. -/
def strictEq : Number → Number → Bool
  | int i, int j => i == j
  | float x, float y => x.ieeeEq y
  | _, _ => false

/-- The nearest double. -/
def toDouble : Number → Double
  | int i => .ofInt i
  | float x => .finite x

/-- Equality of numbers of either kind: equal within a kind, or equal as doubles. -/
def looseEq (x y : Number) : Bool :=
  x.strictEq y || x.toDouble.ieeeEq y.toDouble

/-- Decimal text. -/
def text : Number → String
  | int i => toString i
  | float x => x.text .signed

end Number

end ShapeMatch
