import ShapeMatch.Number.Text

/-!
# Numbers that need no rounding

A magnitude is its own nearest one. An integer that some double denotes is therefore rounded to a
double of the same value, and the two are equal numbers.

## Main definitions

* `FiniteDouble.Denotes`: the integer that a double is.

## Main statements

* `nearestRank_unitsOfRank`: rounding a magnitude gives its rank.
* `Number.looseEq_of_denotes`: an integer equals the doubles that denote it.
-/

namespace ShapeMatch

/-! ## Rounding a magnitude -/

theorem divHalfEven_mul_self (q : Nat) {den : Nat} (hden : 0 < den) :
    divHalfEven (q * den) den = q := by
  simp [divHalfEven, Nat.mul_div_cancel q hden, hden]

theorem blockSize_pos : 0 < blockSize := Nat.two_pow_pos 52

theorem unitsPerOne_pos : 0 < unitsPerOne := by
  unfold unitsPerOne
  -- a variable exponent, so that the power is not evaluated
  generalize unitExponent = k
  exact Nat.two_pow_pos k

/-- Magnitudes of the first block keep all their bits. -/
theorem log2_le_of_lt_blockSize {r : Nat} (h : r < blockSize) : r.log2 ≤ 52 := by
  by_cases hr : r = 0
  · simp [hr]
  · exact Nat.le_of_lt ((Nat.log2_lt hr).mpr h)

/-- The magnitudes that begin the later blocks have 53 bits. -/
theorem log2_blockSize_add {m : Nat} (h : m < blockSize) : (blockSize + m).log2 = 52 := by
  have hpos := blockSize_pos
  rw [Nat.log2_eq_iff (by omega)]
  have hpow : (2 ^ 53 : Nat) = 2 * blockSize := by decide
  exact ⟨Nat.le_add_right _ m, by omega⟩

/-- Rounding a magnitude gives its rank. -/
theorem nearestRank_unitsOfRank (r : Nat) : nearestRank (unitsOfRank r) 1 = r := by
  by_cases hr : r < blockSize
  · have hshift : r.log2 - 52 = 0 := Nat.sub_eq_zero_of_le (log2_le_of_lt_blockSize hr)
    have hround := divHalfEven_mul_self r Nat.one_pos
    simpa [nearestRank, unitsOfRank, hr, hshift] using hround
  · have hmod : r % blockSize < blockSize := Nat.mod_lt r blockSize_pos
    have hblock : 0 < r / blockSize := Nat.div_pos (Nat.le_of_not_lt hr) blockSize_pos
    have hne : blockSize + r % blockSize ≠ 0 := Nat.ne_of_gt (Nat.add_pos_left blockSize_pos _)
    have hshift : 52 + (r / blockSize - 1) - 52 = r / blockSize - 1 := by omega
    have hpos : 0 < Nat.pow 2 (r / blockSize - 1) := Nat.two_pow_pos _
    rw [nearestRank, unitsOfRank, if_neg hr, Nat.div_one, log2_mul_pow hne,
      log2_blockSize_add hmod, hshift, Nat.one_mul, divHalfEven_mul_self _ hpos]
    calc (r / blockSize - 1) * blockSize + (blockSize + r % blockSize)
        = (r / blockSize - 1 + 1) * blockSize + r % blockSize := by
          rw [Nat.add_mul, Nat.one_mul, Nat.add_assoc]
      _ = r := by rw [Nat.sub_add_cancel hblock, Nat.mul_comm, Nat.div_add_mod]

theorem unitsOfRank_eq_zero_iff {r : Nat} : unitsOfRank r = 0 ↔ r = 0 := by
  have hpos := blockSize_pos
  constructor
  · intro h
    have hround := nearestRank_unitsOfRank r
    rw [h] at hround
    exact hround.symm.trans (by decide)
  · rintro rfl
    simp [unitsOfRank, hpos]

/-! ## Integers among the doubles -/

namespace FiniteDouble

/-- The value of a double is an integer. -/
def Denotes (x : FiniteDouble) (i : Int) : Prop :=
  (if x.negative then -(x.units : Int) else x.units) = i * unitsPerOne

instance (x : FiniteDouble) (i : Int) : Decidable (x.Denotes i) :=
  inferInstanceAs (Decidable ((if x.negative then -(x.units : Int) else x.units) = i * unitsPerOne))

variable {x : FiniteDouble} {i : Int}

theorem Denotes.units_eq (h : x.Denotes i) : x.units = i.natAbs * unitsPerOne := by
  have habs := congrArg Int.natAbs h
  rw [Int.natAbs_mul, Int.natAbs_natCast] at habs
  rw [← habs]
  split <;> simp

/-- The sign of a double is that of the integer it denotes, but for a zero. -/
theorem Denotes.negative_eq (h : x.Denotes i) : x.negative = decide (i < 0) ∨ x.rank.val = 0 := by
  rcases Nat.eq_zero_or_pos x.units with hzero | hpos
  · exact .inr (unitsOfRank_eq_zero_iff.mp hzero)
  · refine .inl ?_
    have hunit : 0 < (unitsPerOne : Int) := Int.natCast_pos.mpr unitsPerOne_pos
    have hsign : i < 0 ↔ i * unitsPerOne < 0 := by
      rw [← Int.mul_lt_mul_right hunit, Int.zero_mul]
    rw [Bool.eq_iff_iff, decide_eq_true_iff, hsign, ← h]
    cases x.negative <;> simp [hpos]

end FiniteDouble

/-- An integer equals the doubles that denote it. -/
theorem Number.looseEq_of_denotes {i : Int} {x : FiniteDouble} (h : x.Denotes i) :
    (Number.int i).looseEq (.float x) = true := by
  have hrank : rankOfNat i.natAbs = x.rank := by
    rw [rankOfNat_eq_nearestRank, ← h.units_eq, FiniteDouble.units, nearestRank_unitsOfRank]
  have hdouble : Double.ofInt i = .finite ⟨i < 0, x.rank⟩ := by
    rw [Double.ofInt, Double.ofRank, hrank, dif_pos x.rank.isLt]
  have hequal : (Double.ofInt i).ieeeEq (.finite x) = true := by
    rw [hdouble, Double.ieeeEq, FiniteDouble.ieeeEq_iff]
    exact ⟨rfl, h.negative_eq.imp_left Eq.symm⟩
  rw [looseEq, toDouble, toDouble, hequal, Bool.or_true]

end ShapeMatch
