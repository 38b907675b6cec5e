import Mathlib.Algebra.Order.Field.Rat
import Mathlib.Algebra.Order.Field.Basic
import Mathlib.Data.Nat.Dist
import ShapeMatch.Proofs.Number.Rounding

/-!
# The nearest double

Rounding keeps 53 bits of a quotient and rounds the rest to even. That this gives the nearest of
all magnitudes, and not just of those with the spacing at hand, is because the magnitudes below
the block of the quotient are all farther away than the one that begins the block.

## Main definitions

* `Preferred`: one magnitude is nearer to a quotient than another, or as near and even.
* `FiniteDouble.value`: the number that a double is.
* `FiniteDouble.IsNearest`: the double nearest to a number, ties to even.

## Main statements

* `preferred_nearestRank`: the rounded magnitude is preferred to all others.
* `exists_unitsOfRank_eq_mul_unitsPerOne`: whole numbers of 53 significant bits are magnitudes.
* `Double.isNearest_iff_of_ofRatio`: rounding a quotient gives the double nearest to it.
-/

namespace ShapeMatch

/-! ## Rounding to a whole number -/

section

variable (num den : Nat)

theorem divHalfEven_cases :
    (2 * (num % den) < den ∧ divHalfEven num den = num / den) ∨
      (den < 2 * (num % den) ∧ divHalfEven num den = num / den + 1) ∨
      (2 * (num % den) = den ∧ divHalfEven num den = num / den + num / den % 2) := by
  rcases Nat.lt_trichotomy (2 * (num % den)) den with hlt | heq | hgt
  · exact .inl ⟨hlt, if_pos hlt⟩
  · exact .inr (.inr ⟨heq, by simp [divHalfEven, heq]⟩)
  · exact .inr (.inl ⟨hgt, by simp [divHalfEven, hgt, Nat.lt_asymm hgt]⟩)

theorem div_le_divHalfEven : num / den ≤ divHalfEven num den := by
  have hcases := divHalfEven_cases num den
  omega

theorem divHalfEven_le : divHalfEven num den ≤ num / den + 1 := by
  have hcases := divHalfEven_cases num den
  omega

end

/-- The rounded quotient is nearer than any other whole number, or as near and even. The other is
then one of the two neighbours of the quotient. -/
theorem dist_divHalfEven {num den k : Nat} (hk : k ≠ divHalfEven num den) (hden : 0 < den) :
    Nat.dist num (divHalfEven num den * den) < Nat.dist num (k * den) ∨
      Nat.dist num (divHalfEven num den * den) = Nat.dist num (k * den) ∧
        divHalfEven num den % 2 = 0 ∧ k % 2 = 1 ∧ num / den ≤ k ∧ k ≤ num / den + 1 := by
  have hcases := divHalfEven_cases num den
  have hnum : num / den * den + num % den = num := by
    rw [Nat.mul_comm]
    exact Nat.div_add_mod num den
  have hmod : num % den < den := Nat.mod_lt num hden
  have hnext : (num / den + 1) * den = num / den * den + den := Nat.succ_mul _ _
  generalize num / den = below, num % den = rest, divHalfEven num den = q at *
  have hq : q = below ∨ q = below + 1 := by omega
  rcases Nat.lt_or_ge k below with hlt | hge
  · have hfar : k * den + den ≤ below * den := by
      simpa [Nat.succ_mul] using Nat.mul_le_mul_right den hlt
    unfold Nat.dist
    rcases hq with rfl | rfl <;> omega
  · rcases Nat.lt_or_ge (below + 1) k with hgt | hle
    · have hfar : (below + 1) * den + den ≤ k * den := by
        simpa [Nat.succ_mul] using Nat.mul_le_mul_right den hgt
      unfold Nat.dist
      rcases hq with rfl | rfl <;> omega
    · have hk' : (k = below ∧ q = below + 1) ∨ (k = below + 1 ∧ q = below) := by omega
      unfold Nat.dist
      rcases hk' with ⟨rfl, rfl⟩ | ⟨rfl, rfl⟩ <;> omega

theorem dist_divHalfEven_le (num k : Nat) {den : Nat} (hden : 0 < den) :
    Nat.dist num (divHalfEven num den * den) ≤ Nat.dist num (k * den) := by
  by_cases hk : k = divHalfEven num den
  · rw [hk]
  · have hdist := dist_divHalfEven hk hden
    omega

/-! ## The grid of magnitudes -/

theorem blockSize_even : blockSize % 2 = 0 := by decide

theorem unitsOfRank_injective : Function.Injective unitsOfRank :=
  fun r s h => by rw [← nearestRank_unitsOfRank r, h, nearestRank_unitsOfRank]

/-- The magnitudes of a block after the first. -/
theorem unitsOfRank_succ_block (block : Nat) {offset : Nat} (h : offset < blockSize) :
    unitsOfRank ((block + 1) * blockSize + offset) = (blockSize + offset) * Nat.pow 2 block := by
  have hpos := blockSize_pos
  have hge : ¬(block + 1) * blockSize + offset < blockSize := by
    rw [Nat.succ_mul]
    omega
  have hdiv : ((block + 1) * blockSize + offset) / blockSize = block + 1 := by
    rw [Nat.mul_comm, Nat.mul_add_div hpos, Nat.div_eq_of_lt h, Nat.add_zero]
  have hmod : ((block + 1) * blockSize + offset) % blockSize = offset := by
    rw [Nat.mul_comm, Nat.mul_add_mod, Nat.mod_eq_of_lt h]
  rw [unitsOfRank, if_neg hge, hdiv, hmod, Nat.add_sub_cancel]

/-- A whole number of steps of `2 ^ shift` is a magnitude when it lies in the block of that
spacing, or at its end. The first block continues the second one downwards. -/
theorem unitsOfRank_shift {shift q : Nat} (hle : q ≤ 2 * blockSize)
    (hge : shift = 0 ∨ blockSize ≤ q) :
    unitsOfRank (shift * blockSize + q) = q * Nat.pow 2 shift := by
  have hpos := blockSize_pos
  rcases Nat.lt_or_ge q blockSize with hlt | hge'
  · obtain rfl : shift = 0 := by omega
    simp [unitsOfRank, hlt]
  · obtain ⟨offset, rfl⟩ := Nat.exists_eq_add_of_le hge'
    rcases Nat.lt_or_ge offset blockSize with hlt | hend
    · have hrank : shift * blockSize + (blockSize + offset) =
          (shift + 1) * blockSize + offset := by rw [Nat.succ_mul, Nat.add_assoc]
      rw [hrank, unitsOfRank_succ_block shift hlt]
    · obtain rfl : offset = blockSize := by omega
      have hrank : shift * blockSize + (blockSize + blockSize) =
          (shift + 1 + 1) * blockSize + 0 := by
        rw [Nat.succ_mul, Nat.succ_mul, Nat.add_zero, Nat.add_assoc]
      have hpow : Nat.pow 2 (shift + 1) = 2 * Nat.pow 2 shift := Nat.pow_succ'
      rw [hrank, unitsOfRank_succ_block (shift + 1) hpos, hpow, Nat.add_zero, ← Nat.two_mul,
        ← Nat.mul_assoc, Nat.mul_comm blockSize]

/-- A magnitude is on the grid of multiples of `2 ^ shift`, or below the block of that spacing. -/
theorem unitsOfRank_on_grid (r shift : Nat) :
    (∃ k, unitsOfRank r = k * Nat.pow 2 shift) ∨
      0 < shift ∧ unitsOfRank r < blockSize * Nat.pow 2 shift := by
  have hpos := blockSize_pos
  have hscale : 0 < Nat.pow 2 shift := Nat.two_pow_pos shift
  rcases Nat.eq_zero_or_pos shift with rfl | hshift
  · exact .inl ⟨unitsOfRank r, by simp⟩
  · rcases Nat.lt_or_ge r blockSize with hlt | hge
    · refine .inr ⟨hshift, ?_⟩
      rw [unitsOfRank, if_pos hlt]
      exact Nat.lt_of_lt_of_le hlt (Nat.le_mul_of_pos_right blockSize hscale)
    · obtain ⟨block, offset, hoffset, hunits⟩ : ∃ block offset, offset < blockSize ∧
          unitsOfRank r = (blockSize + offset) * Nat.pow 2 block :=
        ⟨_, _, Nat.mod_lt r hpos, if_neg (Nat.not_lt.mpr hge)⟩
      rw [hunits]
      rcases Nat.lt_or_ge block shift with hlow | hhigh
      · refine .inr ⟨hshift, ?_⟩
        calc (blockSize + offset) * Nat.pow 2 block
            < (blockSize + blockSize) * Nat.pow 2 block :=
              Nat.mul_lt_mul_of_pos_right (Nat.add_lt_add_left hoffset _) (Nat.two_pow_pos block)
          _ = blockSize * Nat.pow 2 (block + 1) := by
              rw [← Nat.two_mul, Nat.mul_comm 2, Nat.mul_assoc]
              exact congrArg (blockSize * ·) Nat.pow_succ'.symm
          _ ≤ blockSize * Nat.pow 2 shift :=
              Nat.mul_le_mul_left _ (Nat.pow_le_pow_right (by decide) hlow)
      · refine .inl ⟨(blockSize + offset) * Nat.pow 2 (block - shift), ?_⟩
        rw [Nat.mul_assoc]
        exact congrArg _ (Nat.pow_sub_mul_pow 2 hhigh).symm

theorem exists_unitsOfRank_eq_two_mul (r : Nat) : ∃ r', unitsOfRank r' = 2 * unitsOfRank r := by
  rcases Nat.lt_or_ge r blockSize with hlt | hge
  · have hdouble := unitsOfRank_shift (Nat.mul_le_mul_left 2 hlt.le) (.inl rfl)
    refine ⟨0 * blockSize + 2 * r, hdouble.trans ?_⟩
    rw [unitsOfRank, if_pos hlt]
    exact Nat.mul_one _
  · have hpos := blockSize_pos
    have hmod : r % blockSize < blockSize := Nat.mod_lt r hpos
    obtain ⟨block, hblock⟩ := Nat.exists_eq_add_one_of_ne_zero (Nat.div_pos hge hpos).ne'
    refine ⟨(block + 1 + 1) * blockSize + r % blockSize, ?_⟩
    rw [unitsOfRank_succ_block _ hmod, unitsOfRank, if_neg (Nat.not_lt.mpr hge), hblock,
      Nat.add_sub_cancel, Nat.mul_left_comm]
    exact congrArg _ Nat.pow_succ'

/-- Whole numbers of at most 53 bits are magnitudes, and so are their products with powers of
two. -/
theorem exists_unitsOfRank_eq_mul_pow {m : Nat} (hm : m ≤ 2 * blockSize) (k : Nat) :
    ∃ r, unitsOfRank r = m * Nat.pow 2 k := by
  induction k with
  | zero => exact ⟨0 * blockSize + m, unitsOfRank_shift hm (.inl rfl)⟩
  | succ k ih =>
    obtain ⟨r, hr⟩ := ih
    obtain ⟨r', hr'⟩ := exists_unitsOfRank_eq_two_mul r
    refine ⟨r', ?_⟩
    rw [hr', hr, Nat.mul_left_comm]
    exact congrArg _ Nat.pow_succ'.symm

/-- Of the whole numbers, those of at most 53 significant bits are magnitudes. -/
theorem exists_unitsOfRank_eq_mul_unitsPerOne {m : Nat} (hm : m ≤ 2 * blockSize) (k : Nat) :
    ∃ r, unitsOfRank r = m * Nat.pow 2 k * unitsPerOne := by
  unfold unitsPerOne
  -- a variable exponent, so that the power is not evaluated
  generalize unitExponent = e
  obtain ⟨r, hr⟩ := exists_unitsOfRank_eq_mul_pow hm (k + e)
  refine ⟨r, hr.trans ?_⟩
  rw [Nat.mul_assoc]
  exact congrArg _ (Nat.pow_add 2 k e)

/-! ## Rounding to a magnitude -/

/-- Magnitude `r` is nearer to `num / den` units than `r'` is, or as near and even where `r'` is
odd. -/
def Preferred (num den r r' : Nat) : Prop :=
  Nat.dist num (unitsOfRank r * den) < Nat.dist num (unitsOfRank r' * den) ∨
    Nat.dist num (unitsOfRank r * den) = Nat.dist num (unitsOfRank r' * den) ∧
      r % 2 = 0 ∧ r' % 2 = 1

/-- A number without the bits past its first 53 fills those, but for small numbers. -/
theorem div_pow_log2_bounds (n : Nat) :
    n / Nat.pow 2 (n.log2 - 52) < 2 * blockSize ∧
      (n.log2 - 52 = 0 ∨ blockSize ≤ n / Nat.pow 2 (n.log2 - 52)) := by
  have hstep : 0 < Nat.pow 2 (n.log2 - 52) := Nat.two_pow_pos _
  constructor
  · rw [Nat.div_lt_iff_lt_mul hstep]
    calc n < 2 ^ (n.log2 + 1) := Nat.lt_log2_self
      _ ≤ 2 ^ (53 + (n.log2 - 52)) := Nat.pow_le_pow_right (by decide) (by omega)
      _ = 2 * blockSize * Nat.pow 2 (n.log2 - 52) := Nat.pow_add 2 53 _
  · refine or_iff_not_imp_left.mpr fun hshift => ?_
    have hn : n ≠ 0 := by
      rintro rfl
      exact hshift (by simp)
    rw [Nat.le_div_iff_mul_le hstep]
    calc blockSize * Nat.pow 2 (n.log2 - 52) = 2 ^ (52 + (n.log2 - 52)) := (Nat.pow_add 2 52 _).symm
      _ = 2 ^ n.log2 := by rw [Nat.add_sub_cancel' (by omega)]
      _ ≤ n := Nat.log2_self_le hn

/-- The rounded magnitude is preferred to all others. -/
theorem preferred_nearestRank {num den r : Nat} (hr : r ≠ nearestRank num den) (hden : 0 < den) :
    Preferred num den (nearestRank num den) r := by
  obtain ⟨hlt, hge⟩ := div_pow_log2_bounds (num / den)
  rw [Nat.div_div_eq_div_mul] at hlt hge
  simp only [nearestRank] at hr ⊢
  generalize (num / den).log2 - 52 = shift at *
  have hscale (k : Nat) : k * Nat.pow 2 shift * den = k * (den * Nat.pow 2 shift) := by
    rw [Nat.mul_assoc, Nat.mul_comm den]
  have hstep : 0 < den * Nat.pow 2 shift := Nat.mul_pos hden (Nat.two_pow_pos shift)
  generalize den * Nat.pow 2 shift = step at *
  have hlow := div_le_divHalfEven num step
  have hhigh := divHalfEven_le num step
  have hunits : unitsOfRank (shift * blockSize + divHalfEven num step) =
      divHalfEven num step * Nat.pow 2 shift := unitsOfRank_shift (by omega) (by omega)
  rw [Preferred, hunits, hscale]
  rcases unitsOfRank_on_grid r shift with ⟨k, hk⟩ | ⟨hshift, hbelow⟩
  · rw [hk, hscale]
    have hne : k ≠ divHalfEven num step := by
      rintro rfl
      exact hr (unitsOfRank_injective (hk.trans hunits.symm))
    refine (dist_divHalfEven hne hstep).imp_right ?_
    rintro ⟨hdist, hq, hodd, hk_ge, hk_le⟩
    have hrank : r = shift * blockSize + k := by
      refine unitsOfRank_injective (hk.trans (unitsOfRank_shift ?_ ?_).symm) <;> omega
    have heven : shift * blockSize % 2 = 0 := by simp [Nat.mul_mod, blockSize_even]
    omega
  · -- the block of the quotient begins between the magnitude and the quotient
    have hstart : blockSize * step ≤ num :=
      (Nat.le_div_iff_mul_le hstep).mp (hge.resolve_left (Nat.ne_of_gt hshift))
    have hfar : unitsOfRank r * den < blockSize * step := by
      rw [← hscale]
      exact Nat.mul_lt_mul_of_pos_right hbelow hden
    have hnear := dist_divHalfEven_le num blockSize hstep
    unfold Nat.dist at hnear ⊢
    omega

/-- Quotients below `2 ^ 2097` units, half the first power of two past the finite magnitudes, have
finite ranks. -/
theorem nearestRank_lt_finiteRanks {num den : Nat} (h : (num / den).log2 < 2097) :
    nearestRank num den < finiteRanks := by
  obtain ⟨hlt, -⟩ := div_pow_log2_bounds (num / den)
  rw [Nat.div_div_eq_div_mul] at hlt
  have hhigh := divHalfEven_le num (den * Nat.pow 2 ((num / den).log2 - 52))
  have hshift : ((num / den).log2 - 52) * blockSize ≤ 2044 * blockSize :=
    Nat.mul_le_mul_right blockSize (by omega)
  have hpos := blockSize_pos
  simp only [nearestRank, finiteRanks]
  omega

/-! ## The nearest double -/

/-- A number of the given sign. -/
def signed (negative : Bool) (q : ℚ) : ℚ := if negative then -q else q

/-- The magnitude of rank `r`. -/
def magnitude (r : Nat) : ℚ := unitsOfRank r / unitsPerOne

theorem unitsPerOne_cast_pos : (0 : ℚ) < unitsPerOne := Nat.cast_pos.mpr unitsPerOne_pos

theorem magnitude_nonneg (r : Nat) : 0 ≤ magnitude r :=
  div_nonneg (Nat.cast_nonneg _) unitsPerOne_cast_pos.le

theorem magnitude_injective : Function.Injective magnitude := by
  intro r r' h
  rw [magnitude, magnitude, div_left_inj' unitsPerOne_cast_pos.ne', Nat.cast_inj] at h
  exact unitsOfRank_injective h

@[simp] theorem magnitude_zero : magnitude 0 = 0 := by
  rw [magnitude, unitsOfRank_eq_zero_iff.mpr rfl, Nat.cast_zero, zero_div]

theorem magnitude_eq_zero_iff {r : Nat} : magnitude r = 0 ↔ r = 0 := by
  rw [← magnitude_zero, magnitude_injective.eq_iff]

@[simp] theorem signed_false (q : ℚ) : signed false q = q := rfl

@[simp] theorem signed_true (q : ℚ) : signed true q = -q := rfl

@[simp] theorem signed_zero (negative : Bool) : signed negative 0 = 0 := by
  cases negative <;> simp

theorem abs_signed_sub_signed (negative : Bool) (a b : ℚ) :
    |signed negative a - signed negative b| = |a - b| := by
  cases negative with
  | false => rfl
  | true => rw [signed_true, signed_true, neg_sub_neg, abs_sub_comm]

/-- Numbers of opposite signs are as far apart as their sum. -/
theorem abs_signed_sub_signed_of_ne {s t : Bool} (hne : t ≠ s) {a b : ℚ} (ha : 0 ≤ a)
    (hb : 0 ≤ b) : |signed s a - signed t b| = a + b := by
  have hsum : |a + b| = a + b := abs_of_nonneg (add_nonneg ha hb)
  cases s <;> cases t <;> simp only [ne_eq, not_true_eq_false, signed_false, signed_true] at hne ⊢
  · rw [sub_neg_eq_add, hsum]
  · rw [← neg_add', abs_neg, hsum]

theorem cast_dist (m n : Nat) : (Nat.dist m n : ℚ) = |(m : ℚ) - n| := by
  rcases Nat.le_total m n with h | h
  · rw [Nat.dist_eq_sub_of_le h, Nat.cast_sub h, abs_sub_comm,
      abs_of_nonneg (sub_nonneg.mpr (Nat.cast_le.mpr h))]
  · rw [Nat.dist_eq_sub_of_le_right h, Nat.cast_sub h,
      abs_of_nonneg (sub_nonneg.mpr (Nat.cast_le.mpr h))]

theorem abs_div_sub_magnitude (num r : Nat) {den : Nat} (hden : 0 < den) :
    |(num : ℚ) / den - magnitude r| =
      Nat.dist (num * unitsPerOne) (unitsOfRank r * den) / (den * unitsPerOne) := by
  have hden' : (0 : ℚ) < den := Nat.cast_pos.mpr hden
  have hunit := unitsPerOne_cast_pos
  rw [cast_dist, magnitude, div_sub_div _ _ hden'.ne' hunit.ne', abs_div,
    abs_of_pos (mul_pos hden' hunit), Nat.cast_mul, Nat.cast_mul, mul_comm (unitsOfRank r : ℚ)]

/-- The preference among magnitudes by their distances from the quotient itself. -/
theorem preferred_iff {num den r r' : Nat} (hden : 0 < den) :
    Preferred (num * unitsPerOne) den r r' ↔
      |(num : ℚ) / den - magnitude r| < |(num : ℚ) / den - magnitude r'| ∨
        |(num : ℚ) / den - magnitude r| = |(num : ℚ) / den - magnitude r'| ∧
          r % 2 = 0 ∧ r' % 2 = 1 := by
  have hpos : (0 : ℚ) < den * unitsPerOne := mul_pos (Nat.cast_pos.mpr hden) unitsPerOne_cast_pos
  rw [abs_div_sub_magnitude _ _ hden, abs_div_sub_magnitude _ _ hden,
    div_lt_div_iff_of_pos_right hpos, div_left_inj' hpos.ne', Nat.cast_lt, Nat.cast_inj, Preferred]

namespace FiniteDouble

/-- The number that a double is. -/
def value (x : FiniteDouble) : ℚ := signed x.negative (magnitude x.rank)

/-- No double is nearer to `q`, and the last bit is even when another value is as near. -/
structure IsNearest (x : FiniteDouble) (q : ℚ) : Prop where
  le : ∀ y : FiniteDouble, |q - x.value| ≤ |q - y.value|
  even : ∀ y : FiniteDouble, y.value ≠ x.value → |q - y.value| = |q - x.value| →
    x.rank.val % 2 = 0

variable {x y : FiniteDouble}

/-- Doubles are equal when they are the same number. -/
theorem ieeeEq_iff_value_eq : x.ieeeEq y = true ↔ x.value = y.value := by
  rw [ieeeEq_iff]
  constructor
  · rintro ⟨hrank, hsign | hzero⟩
    · rw [value, value, hrank, hsign]
    · rw [value, value, ← hrank, hzero, magnitude_zero, signed_zero, signed_zero]
  · intro h
    have hdist : |x.value - y.value| = 0 := by rw [h, sub_self, abs_zero]
    by_cases hsign : y.negative = x.negative
    · rw [value, value, hsign, abs_signed_sub_signed, abs_eq_zero, sub_eq_zero] at hdist
      exact ⟨Fin.ext (magnitude_injective hdist), .inl hsign.symm⟩
    · have hx := magnitude_nonneg x.rank
      have hy := magnitude_nonneg y.rank
      rw [value, value, abs_signed_sub_signed_of_ne hsign hx hy, add_eq_zero_iff_of_nonneg hx hy,
        magnitude_eq_zero_iff, magnitude_eq_zero_iff] at hdist
      exact ⟨Fin.ext (hdist.1.trans hdist.2.symm), .inr hdist.1⟩

theorem rank_eq_of_value_eq (h : x.value = y.value) : x.rank = y.rank :=
  (ieeeEq_iff.mp (ieeeEq_iff_value_eq.mpr h)).1

/-- The double nearest to a double is itself, up to the sign of a zero. -/
theorem isNearest_value_iff : y.IsNearest x.value ↔ y.value = x.value := by
  constructor
  · intro h
    have hle := h.le x
    rw [sub_self, abs_zero] at hle
    exact (sub_eq_zero.mp (abs_nonpos_iff.mp hle)).symm
  · intro h
    rw [← h]
    refine ⟨fun z => by simp, fun z hne hdist => ?_⟩
    rw [sub_self, abs_zero, abs_eq_zero, sub_eq_zero] at hdist
    exact absurd hdist.symm hne

end FiniteDouble

namespace Double

variable {negative : Bool} {num den : Nat} {x y : FiniteDouble}

theorem ofRatio_eq_finite_iff : ofRatio negative num den = .finite x ↔
    x.negative = negative ∧ x.rank.val = nearestRank (num * unitsPerOne) den := by
  obtain ⟨s, r, hr⟩ := x
  rw [ofRatio, ofRank]
  constructor
  · intro h
    split at h
    · cases h
      exact ⟨rfl, rfl⟩
    · cases h
  · rintro ⟨rfl, rfl⟩
    rw [dif_pos hr]

/-- A double from rounding is nearer than one of another value, or as near and even. -/
theorem nearer_of_ofRatio (h : ofRatio negative num den = .finite x) (hden : 0 < den)
    (hne : y.value ≠ x.value) :
    |signed negative (num / den) - x.value| < |signed negative (num / den) - y.value| ∨
      |signed negative (num / den) - x.value| = |signed negative (num / den) - y.value| ∧
        x.rank.val % 2 = 0 ∧ y.rank.val % 2 = 1 := by
  obtain ⟨hsign, hrank⟩ := ofRatio_eq_finite_iff.mp h
  have hquotient : (0 : ℚ) ≤ num / den := div_nonneg (Nat.cast_nonneg _) (Nat.cast_nonneg _)
  have hpreferred {r : Nat} (hr : r ≠ x.rank) :=
    (preferred_iff hden).mp (preferred_nearestRank (hrank ▸ hr) hden)
  rw [← hrank] at hpreferred
  rw [FiniteDouble.value, hsign, abs_signed_sub_signed]
  by_cases hsame : y.value = signed negative (magnitude y.rank)
  · rw [hsame, abs_signed_sub_signed]
    exact hpreferred fun hr => hne (by rw [hsame, FiniteDouble.value, hsign, hr])
  · -- `y` is beyond zero, which is itself no nearer than `x`
    have hother : y.negative ≠ negative := fun hs => hsame (by rw [FiniteDouble.value, hs])
    have hpos : 0 < magnitude y.rank := (magnitude_nonneg _).lt_of_ne' fun hzero =>
      hsame (by rw [FiniteDouble.value, hzero, signed_zero, signed_zero])
    rw [FiniteDouble.value, abs_signed_sub_signed_of_ne hother hquotient hpos.le]
    left
    calc |(num / den : ℚ) - magnitude x.rank| ≤ |(num / den : ℚ) - magnitude 0| := by
          rcases eq_or_ne 0 x.rank.val with hzero | hnonzero
          · rw [← hzero]
          · exact (hpreferred hnonzero).elim le_of_lt fun hr => hr.1.le
      _ = num / den := by rw [magnitude_zero, sub_zero, abs_of_nonneg hquotient]
      _ < num / den + magnitude y.rank := lt_add_of_pos_right _ hpos

/-- The double nearest to a quotient is the one that rounding gives. -/
theorem isNearest_iff_of_ofRatio (h : ofRatio negative num den = .finite x) (hden : 0 < den) :
    y.IsNearest (signed negative (num / den)) ↔ y.value = x.value := by
  constructor
  · intro hy
    by_contra hne
    have hle := hy.le x
    rcases nearer_of_ofRatio h hden hne with hlt | ⟨heq, -, hodd⟩
    · exact absurd hlt (not_lt.mpr hle)
    · have heven := hy.even x (Ne.symm hne) heq
      omega
  · intro hy
    have hrank := FiniteDouble.rank_eq_of_value_eq hy
    refine ⟨fun z => ?_, fun z hne hdist => ?_⟩
    · rw [hy]
      by_cases hz : z.value = x.value
      · rw [hz]
      · exact (nearer_of_ofRatio h hden hz).elim le_of_lt fun hz => hz.1.le
    · rw [hy] at hne hdist
      rw [hrank]
      exact ((nearer_of_ofRatio h hden hne).resolve_left hdist.le.not_gt).2.1

end Double

end ShapeMatch
