import ShapeMatch.Number.Double

/-!
# Decimal numbers and doubles

Both directions between decimal text and doubles: the double nearest to a decimal, and the
shortest decimal that reads back as a given double.

## Main definitions

* `Decimal`: a coefficient times a power of ten.
* `Decimal.toDouble`: the nearest double, ties to even.
* `FiniteDouble.shortest`: the decimal on the coarsest power-of-ten grid among those that read
  back, and on that grid the nearest.
-/

namespace ShapeMatch

/-- The number `coefficient * 10 ^ exponent`. -/
structure Decimal where
  coefficient : Nat
  exponent : Int
deriving DecidableEq, Repr

namespace Decimal

/-- The decimal digits of a number, most significant first; zero has one digit. -/
def digits (n : Nat) : List Char := Nat.toDigits 10 n

/-- The nearest double of the given sign. A decimal of at least `10 ^ 309` is beyond all finite
doubles and one below `10 ^ -324` is nearer to zero than to the least positive double, so only
exponents of moderate size are expanded. -/
def toDouble (negative : Bool) (d : Decimal) : Double :=
  let order : Int := (digits d.coefficient).length + d.exponent
  if d.coefficient = 0 ∨ order ≤ -324 then .ofRank negative 0
  else if 310 ≤ order then .infinite negative
  else if 0 ≤ d.exponent then .ofRatio negative (d.coefficient * Nat.pow 10 d.exponent.toNat) 1
  else .ofRatio negative d.coefficient (Nat.pow 10 (-d.exponent).toNat)

end Decimal

/-- The magnitudes that round to one double, in half units of `2 ^ -1074`: from `low` to
`high`, the ends included when `closed`. -/
structure RoundingInterval where
  low : Nat
  value : Nat
  high : Nat
  closed : Bool

namespace RoundingInterval

/-- Whether `num / den` half units lie in the interval. -/
def contains (i : RoundingInterval) (num den : Nat) : Bool :=
  if i.closed then i.low * den ≤ num && num ≤ i.high * den
  else i.low * den < num && num < i.high * den

/-- The point of the grid of multiples of `10 ^ exponent` that lies in the interval and is
nearest to its value, the even one of two equally near. -/
def pointOnGrid? (i : RoundingInterval) (exponent : Int) : Option Decimal :=
  -- the grid's step and the value, over a common denominator
  let step := 2 * unitsPerOne * Nat.pow 10 exponent.toNat
  let den := Nat.pow 10 (-exponent).toNat
  let below := i.value * den / step
  let lower := i.contains (below * step) den
  let upper := i.contains ((below + 1) * step) den
  let twice := 2 * (i.value * den % step)
  let preferUpper := step < twice || (twice == step && below % 2 == 1)
  if upper && (preferUpper || !lower) then some ⟨below + 1, exponent⟩
  else if lower then some ⟨below, exponent⟩
  else none

end RoundingInterval

namespace FiniteDouble

/-- The magnitudes that round to `x`, ends included when the last bit of `x` is even. -/
def roundingInterval (x : FiniteDouble) : RoundingInterval where
  low := unitsOfRank (x.rank - 1) + x.units
  value := 2 * x.units
  high := x.units + unitsOfRank (x.rank + 1)
  closed := x.rank.val % 2 == 0

/-- The magnitude of `x` in the fewest digits that read back as `x`. The grids are tried from
one too coarse to the exact grid of `10 ^ -1074`. -/
def shortest (x : FiniteDouble) : Decimal :=
  if x.isZero then ⟨0, 0⟩
  else
    let top := (Decimal.digits (x.units / unitsPerOne)).length
    let grids := List.range (top + 1075)
    (grids.findSome? fun (j : Nat) => x.roundingInterval.pointOnGrid? (top - j)).getD ⟨0, 0⟩

end FiniteDouble

end ShapeMatch
