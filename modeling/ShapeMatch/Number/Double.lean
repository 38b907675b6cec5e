/-!
# IEEE doubles, exactly

A finite double is a sign and its rank among the magnitudes, so that a larger rank is a larger
magnitude and every value of the type is a double. The value itself is a whole number of units
of `2 ^ -1074`, the smallest positive double, and rounding works on that scale in `Nat`. Core's
`Float` is not used: its operations have no equations to reason with.

## Main definitions

* `FiniteDouble`, `Double`: finite doubles, and all doubles with one NaN.
* `FiniteDouble.units`: the magnitude in units of `2 ^ -1074`.
* `Double.ofRatio`: the double nearest to a quotient, ties to even.
* `FiniteDouble.mul`, `FiniteDouble.div`: rounded products and quotients.
* `Double.ieeeEq`: equality of values, under which the zeros agree and NaN equals nothing.
* `FiniteDouble.bits`: the 64 bits of the interchange format.
-/

namespace ShapeMatch

/-- Magnitudes come in blocks of equal spacing; this many are in a block. -/
def blockSize : Nat := Nat.pow 2 52

/-- The number of finite magnitudes. -/
def finiteRanks : Nat := 2047 * blockSize

/-- The smallest positive double is two to the power of minus this. -/
def unitExponent : Nat := 1074

/-- How many units of `2 ^ -1074` make one. -/
def unitsPerOne : Nat := Nat.pow 2 unitExponent

/-- A finite double: its sign and the rank of its magnitude, zero having rank 0. -/
structure FiniteDouble where
  negative : Bool
  rank : Fin finiteRanks
deriving DecidableEq, Repr

/-- A double. NaN payloads play no role, so there is one NaN. -/
inductive Double where
  | finite (x : FiniteDouble)
  | infinite (negative : Bool)
  | nan
deriving DecidableEq, Repr

/-- The magnitude of rank `r` in units of `2 ^ -1074`. In the first two blocks the magnitudes
are one unit apart; in each later block the spacing doubles. -/
def unitsOfRank (r : Nat) : Nat :=
  if r < blockSize then r
  else (blockSize + r % blockSize) * Nat.pow 2 (r / blockSize - 1)

/-- The quotient `num / den` rounded to a whole number, a half going to the even neighbour. -/
def divHalfEven (num den : Nat) : Nat :=
  let q := num / den
  let twice := 2 * (num % den)
  if twice < den then q
  else if den < twice then q + 1
  else q + q % 2

/-- The rank whose magnitude is nearest to `num / den` units. A quotient of `2 ^ 53` units or
more keeps 53 significant bits; ranks are laid out so that a carry into the next power of two
is the next rank, and so that rank parity is parity of the last kept bit. -/
def nearestRank (num den : Nat) : Nat :=
  let shift := (num / den).log2 - 52
  shift * blockSize + divHalfEven num (den * Nat.pow 2 shift)

theorem divHalfEven_mul_right (num den : Nat) {k : Nat} (hk : 0 < k) :
    divHalfEven (num * k) (den * k) = divHalfEven num den := by
  simp only [divHalfEven, Nat.mul_div_mul_right _ _ hk, Nat.mul_mod_mul_right, ← Nat.mul_assoc,
    Nat.mul_lt_mul_right hk]

theorem log2_mul_pow {n : Nat} (hn : n ≠ 0) (k : Nat) :
    (n * Nat.pow 2 k).log2 = n.log2 + k := by
  induction k with
  | zero => simp
  | succ k ih =>
    have hpos : 0 < Nat.pow 2 k := Nat.pow_pos (by decide)
    have hne : n * Nat.pow 2 k ≠ 0 := Nat.mul_ne_zero hn (Nat.ne_of_gt hpos)
    have hstep : n * Nat.pow 2 (k + 1) = 2 * (n * Nat.pow 2 k) := by
      rw [← Nat.mul_assoc, Nat.mul_comm 2 n, Nat.mul_assoc, Nat.mul_comm 2]
      rfl
    rw [hstep, Nat.log2_two_mul hne, ih, Nat.add_assoc]

/-- The rank nearest to a whole number of large powers of two. The powers cancel in the
rounding. -/
theorem nearestRank_mul_pow {n : Nat} (hn : n ≠ 0) (k : Nat) :
    nearestRank (n * Nat.pow 2 (52 + k)) 1 =
      (n.log2 + k) * blockSize + divHalfEven (n * blockSize) (Nat.pow 2 n.log2) := by
  have hshift : n.log2 + (52 + k) - 52 = n.log2 + k := by omega
  have hnum : n * Nat.pow 2 (52 + k) = n * blockSize * Nat.pow 2 k := by
    rw [Nat.mul_assoc]
    exact congrArg (n * ·) (Nat.pow_add 2 52 k)
  have hden : 1 * Nat.pow 2 (n.log2 + k) = Nat.pow 2 n.log2 * Nat.pow 2 k := by
    rw [Nat.one_mul]
    exact Nat.pow_add 2 n.log2 k
  have hpos : 0 < Nat.pow 2 k := Nat.pow_pos (by decide)
  rw [nearestRank, Nat.div_one, log2_mul_pow hn, hshift, hnum, hden,
    divHalfEven_mul_right _ _ hpos]

/-- The rank whose magnitude is nearest to a whole number. It is `nearestRank` without the scale
of units, so that small numbers stay small. -/
def rankOfNat (n : Nat) : Nat :=
  if n = 0 then 0
  else (n.log2 + (unitExponent - 52)) * blockSize +
    divHalfEven (n * blockSize) (Nat.pow 2 n.log2)

theorem rankOfNat_eq_nearestRank (n : Nat) : rankOfNat n = nearestRank (n * unitsPerOne) 1 := by
  by_cases hn : n = 0
  · subst hn
    simp [rankOfNat, nearestRank, divHalfEven]
  · have hexp : 52 + (unitExponent - 52) = unitExponent := by decide
    have hscale : unitsPerOne = Nat.pow 2 (52 + (unitExponent - 52)) := by
      unfold unitsPerOne
      exact congrArg (Nat.pow 2) hexp.symm
    rw [rankOfNat, if_neg hn, hscale, nearestRank_mul_pow hn]

namespace FiniteDouble

/-- The magnitude in units of `2 ^ -1074`. -/
def units (x : FiniteDouble) : Nat := unitsOfRank x.rank

def isZero (x : FiniteDouble) : Bool := x.rank.val == 0

/-- Equality of values: the two zeros agree. -/
def ieeeEq (x y : FiniteDouble) : Bool :=
  x.rank == y.rank && (x.negative == y.negative || x.isZero)

/-- The 64 bits of the interchange format, as a number. -/
def bits (x : FiniteDouble) : Nat :=
  (if x.negative then Nat.pow 2 63 else 0) + x.rank

theorem ieeeEq_iff {x y : FiniteDouble} :
    x.ieeeEq y = true ↔ x.rank = y.rank ∧ (x.negative = y.negative ∨ x.rank.val = 0) := by
  simp [ieeeEq, isZero]

end FiniteDouble

namespace Double

/-- The double of the given sign and rank; a rank past the finite ones is an infinity. -/
def ofRank (negative : Bool) (rank : Nat) : Double :=
  if h : rank < finiteRanks then .finite ⟨negative, rank, h⟩ else .infinite negative

/-- The double nearest to `num / den`, ties to even, with the given sign. -/
def ofRatio (negative : Bool) (num den : Nat) : Double :=
  ofRank negative (nearestRank (num * unitsPerOne) den)

/-- The double nearest to an integer. -/
def ofInt (i : Int) : Double := ofRank (i < 0) (rankOfNat i.natAbs)

theorem ofInt_eq_ofRatio (i : Int) : ofInt i = ofRatio (i < 0) i.natAbs 1 := by
  rw [ofInt, ofRatio, rankOfNat_eq_nearestRank]

/-- A double that is a number, without infinities. -/
def finite? : Double → Option FiniteDouble
  | finite x => some x
  | _ => none

/-- Equality of values: the two zeros agree and NaN differs from everything. -/
def ieeeEq : Double → Double → Bool
  | finite x, finite y => x.ieeeEq y
  | infinite s, infinite t => s == t
  | _, _ => false

end Double

namespace FiniteDouble

/-- The double nearest to a product, ties to even. -/
def mul (x y : FiniteDouble) : Double :=
  .ofRatio (x.negative != y.negative) (x.units * y.units) (unitsPerOne * unitsPerOne)

/-- The double nearest to a quotient, ties to even. The divisor must not be zero. -/
def div (x y : FiniteDouble) : Double :=
  .ofRatio (x.negative != y.negative) x.units y.units

end FiniteDouble

end ShapeMatch
