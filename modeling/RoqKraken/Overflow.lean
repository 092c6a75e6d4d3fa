import Mathlib.Order.Basic

/-!
# Products of 64 bits

A signed product of 64 bits wraps around where it overflows.  It is the product of the
numbers exactly where that fits, and only there does a positive factor keep the order.
-/

namespace Int64

variable {value other factor : Int64}

/-- The product fits into 64 bits. -/
def FitsMul (value factor : Int64) : Prop :=
  Int64.minValue.toInt ≤ value.toInt * factor.toInt ∧
  value.toInt * factor.toInt ≤ Int64.maxValue.toInt

instance (value factor : Int64) : Decidable (value.FitsMul factor) :=
  inferInstanceAs (Decidable (_ ∧ _))

theorem fitsMul_iff : value.FitsMul factor ↔
    -9223372036854775808 ≤ value.toInt * factor.toInt ∧
      value.toInt * factor.toInt ≤ 9223372036854775807 :=
  Iff.rfl

/-- A product is exact where it fits, and only there. -/
theorem toInt_mul_eq_iff :
    (value * factor).toInt = value.toInt * factor.toInt ↔ value.FitsMul factor := by
  constructor
  · intro exactly
    rw [FitsMul, ← exactly]
    exact ⟨Int64.minValue_le_toInt _, Int64.toInt_le _⟩
  · intro fits
    rw [Int64.toInt_mul]
    obtain ⟨low, high⟩ := fitsMul_iff.mp fits
    exact Int.bmod_eq_of_le (by omega) (by omega)

theorem FitsMul.toInt_mul (fits : value.FitsMul factor) :
    (value * factor).toInt = value.toInt * factor.toInt :=
  toInt_mul_eq_iff.mpr fits

theorem toInt_mul_le_toInt_mul_iff (positive : 0 < factor.toInt) (fits : value.FitsMul factor)
    (fits' : other.FitsMul factor) :
    (value * factor).toInt ≤ (other * factor).toInt ↔ value ≤ other := by
  rw [fits.toInt_mul, fits'.toInt_mul, Int64.le_iff_toInt_le]
  exact Int.mul_le_mul_right positive

end Int64
