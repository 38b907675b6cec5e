import ShapeMatch.Number.Literal
import ShapeMatch.Number.Text

/-!
# JSON numbers

A number without fraction and exponent is an integer when it is in range. Any other is a double,
found in two roundings: the leading digits, as many as 64 bits hold, become a double, and this is
multiplied or divided by a power of ten that is a double too. The result may therefore differ
from the nearest double in its last bits.

## Main definitions

* `Json.Gathered`: leading digits, and the power of ten that they count.
* `Json.scale?`: a double times a power of ten, each step rounded.
* `Json.number?`: the number a word denotes.
-/

namespace ShapeMatch.Json

/-- Leading digits as a whole number, and the power of ten that it counts. -/
structure Gathered where
  significand : Nat
  exponent : Int

/-- The significand with one more digit, if 64 bits hold it. -/
def appendDigit? (significand : Nat) (digit : Char) : Option Nat :=
  let n := 10 * significand + (digit.toNat - '0'.toNat)
  if n < Nat.pow 2 64 then some n else none

/-- Gathers the digits before the point. From the first that does not fit, digits only count
as powers of ten. -/
def gatherWhole (significand : Nat) : List Char → Gathered
  | [] => ⟨significand, 0⟩
  | digit :: rest =>
    match appendDigit? significand digit with
    | some n => gatherWhole n rest
    | none => ⟨significand, rest.length + 1⟩

/-- Gathers the digits after the point, up to the first that does not fit. -/
def gatherFraction (g : Gathered) : List Char → Gathered
  | [] => g
  | digit :: rest =>
    match appendDigit? g.significand digit with
    | some n => gatherFraction ⟨n, g.exponent - 1⟩ rest
    | none => g

/-- The greatest power of ten among the doubles. -/
def greatestPower : Nat := 308

/-- The double nearest to a power of ten, if that is not too large. -/
def powerOfTen? (n : Nat) : Option FiniteDouble :=
  if n ≤ greatestPower then (Double.ofRatio false (Nat.pow 10 n) 1).finite? else none

/-- A double times a power of ten, unless that is too large. -/
def raise? (x : FiniteDouble) (n : Nat) : Option FiniteDouble :=
  if x.isZero then some x else (powerOfTen? n).bind fun power => (x.mul power).finite?

/-- A double divided by a power of ten. A power too large for one division takes several, which
stop at zero. -/
def lower? (x : FiniteDouble) (n : Nat) : Option FiniteDouble :=
  if x.isZero then some x
  else if greatestPower < n then
    ((powerOfTen? greatestPower).bind fun power => (x.div power).finite?).bind fun y =>
      lower? y (n - greatestPower)
  else (powerOfTen? n).bind fun power => (x.div power).finite?
termination_by n
decreasing_by
  have : 0 < greatestPower := by decide
  omega

/-- A double times a power of ten with any exponent. -/
def scale? (x : FiniteDouble) (exponent : Int) : Option FiniteDouble :=
  if 0 ≤ exponent then raise? x exponent.natAbs else lower? x exponent.natAbs

/-- The double that gathered digits denote, unless it is too large for one. -/
def Gathered.float? (g : Gathered) (negative : Bool) : Option Number := do
  let leading ← (Double.ofRatio false g.significand 1).finite?
  let x ← scale? leading g.exponent
  return .float { x with negative }

/-- The number of an integer literal: an integer when it is in range. Minus zero and integers
out of range are doubles. -/
def integer? (negative : Bool) (digits : List Char) : Option Number :=
  let n := natOfDigits digits
  let i : Int := if negative then -n else n
  if (negative ∧ n = 0) ∨ i < integerRange.1 ∨ integerRange.2 < i then
    (gatherWhole 0 digits).float? negative
  else some (.int i)

/-- The double of a literal with gathered digits and what follows them. -/
def scaled? (negative : Bool) (g : Gathered) (rest : List Char) : Option Number :=
  (exponent? rest).bind fun e => { g with exponent := g.exponent + e }.float? negative

/-- The number that a word denotes: digits without a leading zero, then an optional fraction
and an optional exponent. -/
def number? (word : List Char) : Option Number :=
  let negative := word.head? == some '-'
  let (whole, rest) := spanDigits (if negative then word.drop 1 else word)
  if whole.isEmpty || (whole.head? == some '0' && whole.length != 1) then none
  else
    match rest with
    | [] => integer? negative whole
    | '.' :: rest =>
      let (fraction, rest) := spanDigits rest
      if fraction.isEmpty then none
      else scaled? negative (gatherFraction (gatherWhole 0 whole) fraction) rest
    | rest => scaled? negative (gatherWhole 0 whole) rest

end ShapeMatch.Json
