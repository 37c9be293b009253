import Mathlib.Tactic.Common

/-!
# Division that truncates toward zero

When a quotient that is rounded toward zero reaches a bound: on the side of zero on which the bound lies
it does so exactly with the dividend, at the bound times the divisor.
-/

namespace Rcurl.TruncatedDivision

variable {dividend divisor bound : Int}

/-- A quotient reaches a positive bound exactly when the dividend does. -/
theorem le_tdiv_iff (positive : 0 < divisor) (above : 0 < bound) :
    bound ≤ dividend.tdiv divisor ↔ bound * divisor ≤ dividend := by
  constructor
  · intro reaches
    by_cases sign : 0 ≤ dividend
    · have below : divisor * dividend.tdiv divisor ≤ dividend := Int.mul_tdiv_self_le sign
      have scaled : divisor * bound ≤ divisor * dividend.tdiv divisor :=
        Int.mul_le_mul_of_nonneg_left reaches (Int.le_of_lt positive)
      rw [Int.mul_comm]
      exact Int.le_trans scaled below
    · have opposite : 0 ≤ (-dividend).tdiv divisor :=
        Int.tdiv_nonneg (by omega) (Int.le_of_lt positive)
      rw [Int.neg_tdiv] at opposite
      omega
  · exact Int.le_tdiv_of_mul_le positive

/-- A quotient stays below a positive bound exactly when the dividend does. -/
theorem tdiv_lt_iff (positive : 0 < divisor) (above : 0 < bound) :
    dividend.tdiv divisor < bound ↔ dividend < bound * divisor := by
  rw [← Int.not_le, le_tdiv_iff positive above, Int.not_le]

/-- A quotient reaches a negative bound exactly when the dividend does. -/
theorem tdiv_le_neg_iff (positive : 0 < divisor) (above : 0 < bound) :
    dividend.tdiv divisor ≤ -bound ↔ dividend ≤ -(bound * divisor) := by
  have mirrored : bound ≤ (-dividend).tdiv divisor ↔ bound * divisor ≤ -dividend :=
    le_tdiv_iff positive above
  rw [Int.neg_tdiv] at mirrored
  constructor
  · intro reaches
    have opposite := mirrored.mp (by omega)
    omega
  · intro reaches
    have opposite := mirrored.mpr (by omega)
    omega

end Rcurl.TruncatedDivision
