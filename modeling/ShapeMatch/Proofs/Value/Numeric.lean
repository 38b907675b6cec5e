import ShapeMatch.Number.Literal
import ShapeMatch.Proofs.Number.Nearest
import ShapeMatch.Proofs.Value.Equality

/-!
# What equal numbers have in common

Numbers compare as doubles, so two are equal exactly when one double is nearest to both. This is
equality of the numbers themselves where both are doubles, in particular for integers of at most
53 significant bits. Past those, neighbouring integers are equal.

## Main definitions

* `Number.value`: the number that a document number denotes.
* `Number.Exact`: some double is that number.

## Main statements

* `Value.deepEqual_num_iff`: when numbers are equal, and when this is equality of what they denote.
* `Number.exact_int_mul_pow`: integers of at most 53 significant bits are exact.
-/

namespace ShapeMatch

namespace Number

/-- The number that a document number denotes. -/
def value : Number → ℚ
  | int i => i
  | float x => x.value

/-- An integer of 64 bits, with a sign or without, or any double. -/
def InRange : Number → Prop
  | int i => integerRange.1 ≤ i ∧ i ≤ integerRange.2
  | float _ => True

instance : DecidablePred InRange
  | int _ => inferInstanceAs (Decidable (_ ∧ _))
  | float _ => instDecidableTrue

/-- Some double is the number. -/
def Exact (n : Number) : Prop := ∃ x : FiniteDouble, x.value = n.value

variable {m n : Number} {i : Int}

theorem natAbs_le_of_inRange (h : (int i).InRange) : i.natAbs ≤ 2 ^ 64 := by
  obtain ⟨hlow, hhigh⟩ := h
  have hmin : integerRange.1 = -2 ^ 63 := by decide
  have hmax : integerRange.2 = 2 ^ 64 - 1 := by decide
  omega

theorem log2_mul_unitsPerOne {k : Nat} (hk : k ≠ 0) :
    (k * unitsPerOne).log2 = k.log2 + unitExponent := by
  unfold unitsPerOne
  -- a variable exponent, so that the power is not evaluated
  generalize unitExponent = e
  exact log2_mul_pow hk e

/-- Integers are far below the infinities. -/
theorem nearestRank_natAbs_lt (h : (int i).InRange) :
    nearestRank (i.natAbs * unitsPerOne) 1 < finiteRanks := by
  apply nearestRank_lt_finiteRanks
  rw [Nat.div_one]
  rcases Nat.eq_zero_or_pos i.natAbs with hzero | hpos
  · simp [hzero]
  · have hlog : i.natAbs.log2 < 65 :=
      (Nat.log2_lt hpos.ne').mpr (Nat.lt_of_le_of_lt (natAbs_le_of_inRange h) (by decide))
    have hexponent : unitExponent < 2032 := by decide
    rw [log2_mul_unitsPerOne hpos.ne']
    omega

theorem signed_natAbs (i : Int) : signed (i < 0) (i.natAbs / (1 : Nat)) = i := by
  rw [Nat.cast_one, div_one, Nat.cast_natAbs, Int.cast_abs]
  rcases lt_or_ge i 0 with hneg | hnonneg
  · rw [decide_eq_true hneg, signed_true, abs_of_neg (Int.cast_lt_zero.mpr hneg), neg_neg]
  · rw [decide_eq_false (Int.not_lt.mpr hnonneg), signed_false,
      abs_of_nonneg (Int.cast_nonneg hnonneg)]

/-- A number converts to the double nearest to it. -/
theorem exists_toDouble_eq (h : n.InRange) : ∃ x : FiniteDouble, n.toDouble = .finite x ∧
    ∀ y : FiniteDouble, y.IsNearest n.value ↔ y.value = x.value := by
  cases n with
  | float x => exact ⟨x, rfl, fun y => FiniteDouble.isNearest_value_iff⟩
  | int i =>
    have hround : Double.ofRatio (i < 0) i.natAbs 1 =
        .finite ⟨i < 0, _, nearestRank_natAbs_lt h⟩ :=
      Double.ofRatio_eq_finite_iff.mpr ⟨rfl, rfl⟩
    refine ⟨_, (Double.ofInt_eq_ofRatio i).trans hround, fun y => ?_⟩
    rw [value, ← signed_natAbs i]
    exact Double.isNearest_iff_of_ofRatio hround Nat.one_pos

/-- Numbers are equal when one double is nearest to both. -/
theorem looseEq_iff_isNearest (hm : m.InRange) (hn : n.InRange) :
    m.looseEq n = true ↔ ∃ x : FiniteDouble, x.IsNearest m.value ∧ x.IsNearest n.value := by
  obtain ⟨x, hx, hxnearest⟩ := exists_toDouble_eq hm
  obtain ⟨y, hy, hynearest⟩ := exists_toDouble_eq hn
  rw [looseEq_iff, hx, hy, Double.ieeeEq, FiniteDouble.ieeeEq_iff_value_eq]
  simp only [hxnearest, hynearest]
  constructor
  · intro h
    exact ⟨x, rfl, h⟩
  · rintro ⟨z, hzx, hzy⟩
    exact hzx.symm.trans hzy

theorem Exact.isNearest_iff (h : n.Exact) {x : FiniteDouble} :
    x.IsNearest n.value ↔ x.value = n.value := by
  obtain ⟨y, hy⟩ := h
  rw [← hy]
  exact FiniteDouble.isNearest_value_iff

/-- Integers of at most 53 significant bits are exact. -/
theorem exact_int_of_natAbs_eq {k e : Nat} (hk : k ≤ 2 ^ 53) (hi : i.natAbs = k * 2 ^ e)
    (h : (int i).InRange) : (int i).Exact := by
  have hbits : k ≤ 2 * blockSize := hk
  obtain ⟨r, hr⟩ := exists_unitsOfRank_eq_mul_unitsPerOne hbits e
  have hunits : unitsOfRank r = i.natAbs * unitsPerOne := by
    rw [hi]
    exact hr
  have hrank : r < finiteRanks := by
    rw [← nearestRank_unitsOfRank r, hunits]
    exact nearestRank_natAbs_lt h
  refine ⟨⟨i < 0, r, hrank⟩, ?_⟩
  rw [FiniteDouble.value, magnitude, hunits, Nat.cast_mul,
    mul_div_cancel_right₀ _ unitsPerOne_cast_pos.ne', value, ← signed_natAbs i, Nat.cast_one,
    div_one]

end Number

/-- When numbers are equal: one double must be nearest to both. Numbers that denote the same are
equal, and those that are doubles are equal only then. -/
theorem Value.deepEqual_num_iff {m n : Number} (hm : m.InRange) (hn : n.InRange) :
    ((num m).deepEqual (num n) = true ↔
      ∃ x : FiniteDouble, x.IsNearest m.value ∧ x.IsNearest n.value) ∧
    (m.value = n.value → (num m).deepEqual (num n) = true) ∧
    (m.Exact → n.Exact → (num m).deepEqual (num n) = true → m.value = n.value) := by
  have hequal : (num m).deepEqual (num n) = true ↔
      ∃ x : FiniteDouble, x.IsNearest m.value ∧ x.IsNearest n.value := by
    rw [deepEqual, eqBy]
    exact Number.looseEq_iff_isNearest hm hn
  refine ⟨hequal, fun hvalue => hequal.mpr ?_, fun hmexact hnexact h => ?_⟩
  · obtain ⟨x, -, hnearest⟩ := Number.exists_toDouble_eq hn
    rw [hvalue]
    exact ⟨x, (hnearest x).mpr rfl, (hnearest x).mpr rfl⟩
  · obtain ⟨x, hxm, hxn⟩ := hequal.mp h
    exact (hmexact.isNearest_iff.mp hxm).symm.trans (hnexact.isNearest_iff.mp hxn)

/-- The least natural number that is not exact equals its neighbour, which is exact. -/
theorem Value.deepEqual_num_past_53_bits :
    (Number.int (2 ^ 53)).InRange ∧ (Number.int (2 ^ 53 + 1)).InRange ∧
      (Number.int (2 ^ 53)).value ≠ (Number.int (2 ^ 53 + 1)).value ∧
      (num (.int (2 ^ 53))).deepEqual (num (.int (2 ^ 53 + 1))) = true ∧
      (∃ x : FiniteDouble, x.IsNearest (Number.int (2 ^ 53)).value ∧
        x.IsNearest (Number.int (2 ^ 53 + 1)).value) ∧
      (Number.int (2 ^ 53)).Exact ∧ ¬(Number.int (2 ^ 53 + 1)).Exact := by
  have hm : (Number.int (2 ^ 53)).InRange := by decide
  have hn : (Number.int (2 ^ 53 + 1)).InRange := by decide
  have hvalue : (Number.int (2 ^ 53)).value ≠ (Number.int (2 ^ 53 + 1)).value := by
    simp [Number.value]
  have hequal : (num (.int (2 ^ 53))).deepEqual (num (.int (2 ^ 53 + 1))) = true := by
    decide +kernel
  have hexact : (Number.int (2 ^ 53)).Exact :=
    Number.exact_int_of_natAbs_eq (Nat.le_refl _) (e := 0) rfl hm
  obtain ⟨hnearest, -, hexacts⟩ := Value.deepEqual_num_iff hm hn
  exact ⟨hm, hn, hvalue, hequal, hnearest.mp hequal, hexact,
    fun h => hvalue (hexacts hexact h hequal)⟩

end ShapeMatch
