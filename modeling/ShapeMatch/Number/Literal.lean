import ShapeMatch.Number.Decimal

/-!
# Digits and decimal literals

The parts that notations for numbers share.

## Main definitions

* `natOfDigits`, `natOfRadix?`, `hexDigit?`: numbers from their digits.
* `exponent?`: the exponent of a decimal.
* `decimal?`: a decimal without a sign, digits on one side of the point at least.
-/

namespace ShapeMatch

/-- The number that a list of decimal digits denotes. -/
def natOfDigits (digits : List Char) : Nat :=
  digits.foldl (fun n c => 10 * n + (c.toNat - '0'.toNat)) 0

/-- The value of a hexadecimal digit. -/
def hexDigit? (c : Char) : Option Nat :=
  if c.isDigit then some (c.toNat - '0'.toNat)
  else if 'a' ≤ c ∧ c ≤ 'f' then some (c.toNat - 'a'.toNat + 10)
  else if 'A' ≤ c ∧ c ≤ 'F' then some (c.toNat - 'A'.toNat + 10)
  else none

/-- The number that at least one digit denotes, in a radix of at most 16. -/
def natOfRadix? (radix : Nat) (digits : List Char) : Option Nat :=
  if digits.isEmpty then none
  else digits.foldlM
    (fun n c => ((hexDigit? c).filter (· < radix)).map (radix * n + ·)) 0

/-- Splits off the longest run of decimal digits. -/
def spanDigits (cs : List Char) : List Char × List Char := cs.span Char.isDigit

/-- The exponent after the mantissa of a number: nothing, or a mark, an optional sign and at
least one digit. -/
def exponent? : List Char → Option Int
  | [] => some 0
  | mark :: rest =>
    if mark = 'e' ∨ mark = 'E' then
      match rest with
      | '+' :: digits => (natOfRadix? 10 digits).map Int.ofNat
      | '-' :: digits => (natOfRadix? 10 digits).map fun n => -Int.ofNat n
      | digits => (natOfRadix? 10 digits).map Int.ofNat
    else none

/-- A decimal without a sign. A point may end it or begin it, but not stand alone. -/
def decimal? (cs : List Char) : Option Decimal :=
  let (whole, rest) := spanDigits cs
  let (fraction, rest) :=
    match rest with
    | '.' :: rest => spanDigits rest
    | rest => ([], rest)
  if whole.isEmpty && fraction.isEmpty then none
  else (exponent? rest).map fun e => ⟨natOfDigits (whole ++ fraction), e - fraction.length⟩

/-- The least and the greatest integer that documents keep as integers: those of 64 bits, with a
sign or without. -/
def integerRange : Int × Int := (-Nat.pow 2 63, Nat.pow 2 64 - 1)

end ShapeMatch
