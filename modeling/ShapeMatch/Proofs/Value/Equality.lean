import ShapeMatch.Value.Equality

/-!
# Equality of numbers and scalars

Two numbers are equal when they denote equal doubles, which is an equivalence since no number is
NaN. Equal scalars are therefore equal to the same values.

## Main statements

* `Number.looseEq_iff`: equality of numbers is equality of their doubles.
* `Value.deepEqual_congr`: equal scalars are equal to the same values.
-/

namespace ShapeMatch

namespace FiniteDouble

variable {x y z : FiniteDouble}

theorem ieeeEq_self (x : FiniteDouble) : x.ieeeEq x = true := by simp [ieeeEq_iff]

theorem ieeeEq_symm (h : x.ieeeEq y = true) : y.ieeeEq x = true := by
  rw [ieeeEq_iff] at h ⊢
  exact ⟨h.1.symm, h.2.imp Eq.symm fun hzero => h.1 ▸ hzero⟩

/-- The zeros are of one rank, so that a chain through them stays at zero. -/
theorem ieeeEq_trans (hxy : x.ieeeEq y = true) (hyz : y.ieeeEq z = true) : x.ieeeEq z = true := by
  rw [ieeeEq_iff] at hxy hyz ⊢
  grind

end FiniteDouble

namespace Double

variable {x y z : Double}

theorem ieeeEq_self (hx : x ≠ .nan) : x.ieeeEq x = true := by
  cases x with
  | finite x => exact x.ieeeEq_self
  | infinite => simp [ieeeEq]
  | nan => contradiction

theorem ieeeEq_symm (h : x.ieeeEq y = true) : y.ieeeEq x = true := by
  cases x <;> cases y <;> simp_all [ieeeEq, FiniteDouble.ieeeEq_symm]

theorem ieeeEq_trans (hxy : x.ieeeEq y = true) (hyz : y.ieeeEq z = true) : x.ieeeEq z = true := by
  cases x <;> cases y <;> cases z <;> simp_all [ieeeEq]
  exact FiniteDouble.ieeeEq_trans hxy hyz

end Double

namespace Number

variable {x y z : Number}

theorem strictEq_self (x : Number) : x.strictEq x = true := by
  cases x with
  | int => simp [strictEq]
  | float x => exact x.ieeeEq_self

theorem strictEq_symm (h : x.strictEq y = true) : y.strictEq x = true := by
  cases x <;> cases y <;> simp_all [strictEq, FiniteDouble.ieeeEq_symm]

theorem strictEq_trans (hxy : x.strictEq y = true) (hyz : y.strictEq z = true) :
    x.strictEq z = true := by
  cases x <;> cases y <;> cases z <;> simp_all [strictEq]
  exact FiniteDouble.ieeeEq_trans hxy hyz

theorem toDouble_ne_nan (x : Number) : x.toDouble ≠ .nan := by
  cases x with
  | int i =>
    rw [toDouble, Double.ofInt, Double.ofRank]
    split <;> simp
  | float => simp [toDouble]

/-- Numbers are equal when their doubles are, since numbers that are equal within a kind denote
equal doubles. -/
theorem looseEq_iff : x.looseEq y = true ↔ x.toDouble.ieeeEq y.toDouble = true := by
  rw [looseEq, Bool.or_eq_true, or_iff_right_of_imp]
  intro h
  cases x with
  | int i =>
    cases y with
    | int j =>
      rw [show i = j by simpa [strictEq] using h]
      exact Double.ieeeEq_self (toDouble_ne_nan _)
    | float => cases h
  | float =>
    cases y with
    | int => cases h
    | float => exact h

theorem looseEq_of_strictEq (h : x.strictEq y = true) : x.looseEq y = true := by
  rw [looseEq, h, Bool.true_or]

theorem looseEq_self (x : Number) : x.looseEq x = true :=
  looseEq_iff.mpr (Double.ieeeEq_self x.toDouble_ne_nan)

theorem looseEq_symm (h : x.looseEq y = true) : y.looseEq x = true :=
  looseEq_iff.mpr (Double.ieeeEq_symm (looseEq_iff.mp h))

theorem looseEq_trans (hxy : x.looseEq y = true) (hyz : y.looseEq z = true) :
    x.looseEq z = true :=
  looseEq_iff.mpr (Double.ieeeEq_trans (looseEq_iff.mp hxy) (looseEq_iff.mp hyz))

end Number

namespace Value

/-- A value without parts. -/
def isScalar : Value → Bool
  | null | bool _ | num _ | str _ => true
  | arr _ | obj _ => false

/-- Equal scalars are equal to the same values. -/
theorem deepEqual_congr {expected expected' : Value} (hscalar : expected.isScalar = true)
    (h : expected.deepEqual expected' = true) (v : Value) :
    v.deepEqual expected = v.deepEqual expected' := by
  cases expected <;> cases expected' <;> simp_all [deepEqual, eqBy, isScalar]
  next m n =>
    cases v <;> simp only [eqBy]
    next k =>
      exact Bool.eq_iff_iff.mpr ⟨fun hk => Number.looseEq_trans hk h,
        fun hk => Number.looseEq_trans hk (Number.looseEq_symm h)⟩

end Value

end ShapeMatch
