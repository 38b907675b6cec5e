import Mathlib.Algebra.Order.Field.Basic
import Mathlib.Algebra.Order.Field.Rat
import Mathlib.Tactic.Linarith
import ShapeMatch.Proofs.Number.Nearest

/-!
# The shortest decimal of a double

The decimal that is written for a double lies among the magnitudes that round to it. The magnitudes
that round to different doubles are different, so that the decimal gives the magnitude away.

## Main definitions

* `Decimal.value`: the number that a decimal is.
* `RoundingInterval.Holds`: a number lies in an interval.

## Main statements

* `unitsOfRank_strictMono`: magnitudes increase with their ranks.
* `FiniteDouble.holds_shortest`: the shortest decimal of a double rounds to it.
* `FiniteDouble.rank_eq_of_shortest`: doubles with shortest decimals of one value have one
  magnitude.
-/

namespace ShapeMatch

namespace Decimal

/-- A decimal as a quotient of whole numbers. -/
def numerator (d : Decimal) : Nat := d.coefficient * Nat.pow 10 d.exponent.toNat

def denominator (d : Decimal) : Nat := Nat.pow 10 (-d.exponent).toNat

/-- The number that a decimal is. -/
def value (d : Decimal) : ℚ := d.numerator / d.denominator

theorem denominator_pos (d : Decimal) : 0 < d.denominator := Nat.pow_pos (by decide)

end Decimal

/-! ## Magnitudes in order -/

theorem unitsOfRank_strictMono : StrictMono unitsOfRank := by
  refine strictMono_nat_of_lt_succ fun r => ?_
  have hpos := blockSize_pos
  -- both ranks are in one block, of which the second may be the end
  obtain ⟨shift, q, hrank, hle, hge⟩ : ∃ shift q, r = shift * blockSize + q ∧
      q + 1 ≤ 2 * blockSize ∧ (shift = 0 ∨ blockSize ≤ q) := by
    rcases Nat.lt_or_ge r blockSize with hlt | hle
    · exact ⟨0, r, by omega, by omega, .inl rfl⟩
    · have hmod := Nat.mod_lt r hpos
      have hdiv : 0 < r / blockSize := Nat.div_pos hle hpos
      have hsum := Nat.div_add_mod r blockSize
      refine ⟨r / blockSize - 1, blockSize + r % blockSize, ?_, by omega, .inr (by omega)⟩
      have hblock : (r / blockSize - 1) * blockSize + blockSize = blockSize * (r / blockSize) := by
        rw [← Nat.succ_mul, Nat.succ_eq_add_one, Nat.sub_add_cancel hdiv, Nat.mul_comm]
      omega
  have hr : unitsOfRank r = q * Nat.pow 2 shift := by
    rw [hrank]
    exact unitsOfRank_shift (by omega) hge
  have hnext : unitsOfRank (r + 1) = (q + 1) * Nat.pow 2 shift := by
    rw [hrank, Nat.add_assoc]
    exact unitsOfRank_shift hle (by omega)
  rw [hr, hnext]
  exact Nat.mul_lt_mul_of_pos_right (Nat.lt_succ_self q) (Nat.two_pow_pos shift)

/-! ## Intervals -/

namespace RoundingInterval

/-- A number of half units lies in an interval. -/
def Holds (i : RoundingInterval) (q : ℚ) : Prop :=
  i.low ≤ q ∧ q ≤ i.high ∧ (i.closed = false → i.low ≠ q ∧ q ≠ i.high)

variable {i : RoundingInterval}

theorem contains_iff {num den : Nat} (hden : 0 < den) :
    i.contains num den = true ↔ i.Holds (num / den) := by
  have hden' : (0 : ℚ) < den := Nat.cast_pos.mpr hden
  have hlow : (i.low : ℚ) ≤ num / den ↔ i.low * den ≤ num := by
    rw [le_div_iff₀ hden']
    exact_mod_cast Iff.rfl
  have hhigh : (num / den : ℚ) ≤ i.high ↔ num ≤ i.high * den := by
    rw [div_le_iff₀ hden']
    exact_mod_cast Iff.rfl
  have hlow' : (i.low : ℚ) = num / den ↔ i.low * den = num := by
    rw [eq_div_iff hden'.ne']
    exact_mod_cast Iff.rfl
  have hhigh' : (num / den : ℚ) = i.high ↔ num = i.high * den := by
    rw [div_eq_iff hden'.ne']
    exact_mod_cast Iff.rfl
  rw [Holds, hlow, hhigh, ne_eq, ne_eq, hlow', hhigh', contains]
  cases i.closed
  · simp
    omega
  · simp

theorem contains_grid_iff {n : Nat} {e : Int} :
    i.contains (n * (2 * unitsPerOne * Nat.pow 10 e.toNat)) (Nat.pow 10 (-e).toNat) = true ↔
      i.Holds (2 * unitsPerOne * (⟨n, e⟩ : Decimal).value) := by
  have hnum : n * (2 * unitsPerOne * Nat.pow 10 e.toNat) =
      2 * unitsPerOne * (⟨n, e⟩ : Decimal).numerator := Nat.mul_left_comm _ _ _
  have hvalue : ((2 * unitsPerOne * (⟨n, e⟩ : Decimal).numerator : Nat) : ℚ) /
      (⟨n, e⟩ : Decimal).denominator = 2 * unitsPerOne * (⟨n, e⟩ : Decimal).value := by
    rw [Decimal.value, Nat.cast_mul, Nat.cast_mul, Nat.cast_two, mul_div_assoc]
  rw [hnum, ← hvalue]
  exact contains_iff (Decimal.denominator_pos ⟨n, e⟩)

/-- A point that is found on a grid lies in the interval. -/
theorem holds_of_pointOnGrid? {e : Int} {d : Decimal} (h : i.pointOnGrid? e = some d) :
    i.Holds (2 * unitsPerOne * d.value) := by
  rw [pointOnGrid?] at h
  split at h
  next hupper =>
    cases h
    exact contains_grid_iff.mp (Bool.and_eq_true_iff.mp hupper).1
  next =>
    split at h
    next hlower =>
      cases h
      exact contains_grid_iff.mp hlower
    next => cases h

/-- A point is found on a grid that the value of the interval lies on. -/
theorem isSome_pointOnGrid? {e : Int} {n : Nat} (hi : i.Holds i.value)
    (hvalue : i.value * Nat.pow 10 (-e).toNat = n * (2 * unitsPerOne * Nat.pow 10 e.toNat)) :
    (i.pointOnGrid? e).isSome = true := by
  have hstep : 0 < 2 * unitsPerOne * Nat.pow 10 e.toNat :=
    Nat.mul_pos (Nat.mul_pos Nat.two_pos unitsPerOne_pos) (Nat.pow_pos (by decide))
  have hden : 0 < Nat.pow 10 (-e).toNat := Nat.pow_pos (by decide)
  have hlower : i.contains (n * (2 * unitsPerOne * Nat.pow 10 e.toNat))
      (Nat.pow 10 (-e).toNat) = true := by
    rw [← hvalue, contains_iff hden, Nat.cast_mul,
      mul_div_cancel_right₀ _ (Nat.cast_ne_zero.mpr hden.ne')]
    exact hi
  rw [pointOnGrid?]
  simp only [hvalue, Nat.mul_div_cancel n hstep, hlower, if_true]
  split
  · exact Option.isSome_some
  · exact Option.isSome_some

end RoundingInterval

namespace FiniteDouble

variable {x y : FiniteDouble}

/-- A positive rank has its neighbours at different distances from zero. -/
theorem units_bounds (x : FiniteDouble) :
    unitsOfRank (x.rank - 1) ≤ x.units ∧ x.units < unitsOfRank (x.rank + 1) :=
  ⟨unitsOfRank_strictMono.monotone (Nat.sub_le _ _), unitsOfRank_strictMono (Nat.lt_succ_self _)⟩

theorem holds_value (x : FiniteDouble) : x.roundingInterval.Holds x.roundingInterval.value := by
  have hbounds := x.units_bounds
  have hlow : x.roundingInterval.low ≤ x.roundingInterval.value := by
    simp only [roundingInterval]
    omega
  have hhigh : x.roundingInterval.value < x.roundingInterval.high := by
    simp only [roundingInterval]
    omega
  refine ⟨Nat.cast_le.mpr hlow, Nat.cast_le.mpr hhigh.le, fun hopen => ⟨?_, ?_⟩⟩
  · -- only zero has no magnitude below, and its rank is even
    have hodd : x.rank.val % 2 ≠ 0 := by simpa [roundingInterval] using hopen
    have hbelow : unitsOfRank (x.rank - 1) < x.units :=
      unitsOfRank_strictMono (by omega)
    refine (Nat.cast_lt.mpr ?_).ne
    simp only [roundingInterval]
    omega
  · exact (Nat.cast_lt.mpr hhigh).ne

/-- The finest grid has a point for every double: a unit is a whole number of its steps. -/
theorem isSome_pointOnGrid?_finest (x : FiniteDouble) :
    (x.roundingInterval.pointOnGrid? (-(unitExponent : Int))).isSome = true := by
  refine RoundingInterval.isSome_pointOnGrid? (n := x.units * Nat.pow 5 unitExponent)
    x.holds_value ?_
  have hvalue : x.roundingInterval.value = 2 * x.units := rfl
  rw [hvalue]
  unfold unitsPerOne
  -- a variable exponent, so that the powers are not evaluated
  generalize unitExponent = k
  have hfine : (-(-(k : Int))).toNat = k := by omega
  have hcoarse : (-(k : Int)).toNat = 0 := by omega
  have hpow : Nat.pow 10 k = Nat.pow 5 k * Nat.pow 2 k := Nat.mul_pow 5 2 k
  rw [hfine, hcoarse, hpow]
  simp only [Nat.pow_eq, Nat.pow_zero, Nat.mul_one]
  rw [Nat.mul_comm 2, Nat.mul_mul_mul_comm]

/-- The decimal of a double rounds to it. -/
theorem holds_shortest (x : FiniteDouble) :
    x.roundingInterval.Holds (2 * unitsPerOne * x.shortest.value) := by
  rw [shortest]
  split
  next hzero =>
    have hunits : x.units = 0 := unitsOfRank_eq_zero_iff.mpr (by simpa [isZero] using hzero)
    have hvalue : x.roundingInterval.value = 0 := congrArg (2 * ·) hunits
    have hdecimal : (⟨0, 0⟩ : Decimal).value = 0 := by
      rw [Decimal.value, Decimal.numerator, Nat.zero_mul, Nat.cast_zero, zero_div]
    have hholds := x.holds_value
    rw [hvalue, Nat.cast_zero] at hholds
    rwa [hdecimal, mul_zero]
  next =>
    dsimp only
    cases hfound : (List.range ((Decimal.digits (x.units / unitsPerOne)).length + 1075)).findSome?
        fun j : Nat => x.roundingInterval.pointOnGrid?
          ((Decimal.digits (x.units / unitsPerOne)).length - j) with
    | none =>
      have hfinest := List.findSome?_eq_none_iff.mp hfound
        ((Decimal.digits (x.units / unitsPerOne)).length + unitExponent)
        (List.mem_range.mpr (Nat.lt_succ_self _))
      have hexponent : ∀ top : Nat, (top : Int) - (top + unitExponent : Nat) = -unitExponent :=
        fun top => by omega
      have hsome := x.isSome_pointOnGrid?_finest
      rw [← hexponent, hfinest] at hsome
      cases hsome
    | some d =>
      obtain ⟨j, -, hj⟩ := List.exists_of_findSome?_eq_some hfound
      exact RoundingInterval.holds_of_pointOnGrid? hj

/-- Magnitudes of smaller rank have smaller intervals. -/
theorem not_holds_of_rank_lt {q : ℚ} (hlt : x.rank.val < y.rank.val)
    (hx : x.roundingInterval.Holds q) : ¬ y.roundingInterval.Holds q := by
  intro hy
  have hxy : x.units ≤ unitsOfRank (y.rank - 1) := unitsOfRank_strictMono.monotone (by omega)
  have hyx : unitsOfRank (x.rank + 1) ≤ y.units := unitsOfRank_strictMono.monotone (by omega)
  have hle : (x.roundingInterval.high : ℚ) ≤ y.roundingInterval.low :=
    Nat.cast_le.mpr (Nat.add_le_add hxy hyx)
  -- the intervals have at most an end in common, which only one of them includes
  have hhigh : q = x.roundingInterval.high := le_antisymm hx.2.1 (hle.trans hy.1)
  have hlow : (y.roundingInterval.low : ℚ) = q := le_antisymm hy.1 (hhigh ▸ hle)
  have hxclosed : x.rank.val % 2 = 0 := by
    by_contra hodd
    exact (hx.2.2 (by simpa [roundingInterval] using hodd)).2 hhigh
  have hyclosed : y.rank.val % 2 = 0 := by
    by_contra hodd
    exact (hy.2.2 (by simpa [roundingInterval] using hodd)).1 hlow
  have hends : x.units + unitsOfRank (x.rank + 1) = unitsOfRank (y.rank - 1) + y.units :=
    Nat.cast_inj.mp (hhigh.symm.trans hlow.symm)
  have hneighbours : x.rank.val = y.rank.val - 1 :=
    unitsOfRank_strictMono.injective (show x.units = _ by omega)
  omega

/-- A number rounds to one magnitude only. -/
theorem rank_eq_of_holds {q : ℚ} (hx : x.roundingInterval.Holds q)
    (hy : y.roundingInterval.Holds q) : x.rank = y.rank := by
  have hxy := mt (fun h => not_holds_of_rank_lt h hx) (not_not_intro hy)
  have hyx := mt (fun h => not_holds_of_rank_lt h hy) (not_not_intro hx)
  exact Fin.ext (by omega)

/-- The value of the decimal tells the magnitude. -/
theorem rank_eq_of_shortest (h : x.shortest.value = y.shortest.value) : x.rank = y.rank :=
  rank_eq_of_holds x.holds_shortest (h ▸ y.holds_shortest)

end FiniteDouble

end ShapeMatch
