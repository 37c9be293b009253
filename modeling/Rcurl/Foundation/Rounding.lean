import Mathlib.Tactic.Common

/-!
# Rounding to a nearest integer

What every way of rounding a quotient to a nearest integer has in common, whatever it does with ties: it
is exact on integers, it is off by a half at most, and it keeps the order of the quotients.
-/

namespace Rcurl.Rounding

/-- No integer is nearer to the quotient. -/
structure Nearest (numerator denominator rounded : Nat) : Prop where
  /-- It is a half too large at most. -/
  upper : 2 * (rounded * denominator) ≤ 2 * numerator + denominator
  /-- It is a half too small at most. -/
  lower : 2 * numerator ≤ 2 * (rounded * denominator) + denominator

/-- A way of rounding quotients with one denominator. -/
structure Rounds (denominator : Nat) (round : Nat → Nat) : Prop where
  /-- The denominator is none but zero. -/
  positive : 0 < denominator
  /-- It goes to a nearest integer. -/
  nearest : ∀ numerator, Nearest numerator denominator (round numerator)

variable {denominator : Nat} {round : Nat → Nat}

/-- An integer is rounded to itself. -/
theorem Rounds.exact (rounds : Rounds denominator round) (whole : Nat) :
    round (whole * denominator) = whole := by
  have near := rounds.nearest (whole * denominator)
  have positive := rounds.positive
  rcases Nat.lt_trichotomy (round (whole * denominator)) whole with small | same | large
  · have step : (round (whole * denominator) + 1) * denominator ≤ whole * denominator :=
      Nat.mul_le_mul_right denominator small
    rw [Nat.add_mul, Nat.one_mul] at step
    have lower := near.lower
    omega
  · exact same
  · have step : (whole + 1) * denominator ≤ round (whole * denominator) * denominator :=
      Nat.mul_le_mul_right denominator large
    rw [Nat.add_mul, Nat.one_mul] at step
    have upper := near.upper
    omega

/-- A larger quotient is not rounded to a smaller integer. -/
theorem Rounds.mono (rounds : Rounds denominator round) {smaller larger : Nat}
    (le : smaller ≤ larger) : round smaller ≤ round larger := by
  rcases Nat.eq_or_lt_of_le le with rfl | lt
  · exact Nat.le_refl _
  · by_contra crossed
    have step : (round larger + 1) * denominator ≤ round smaller * denominator :=
      Nat.mul_le_mul_right denominator (Nat.not_le.mp crossed)
    rw [Nat.add_mul, Nat.one_mul] at step
    have upper := (rounds.nearest smaller).upper
    have lower := (rounds.nearest larger).lower
    omega

/-- Below an integer a quotient stays below it. -/
theorem Rounds.le_of_le (rounds : Rounds denominator round) {numerator whole : Nat}
    (le : numerator ≤ whole * denominator) : round numerator ≤ whole := by
  have below := rounds.mono le
  rw [rounds.exact whole] at below
  exact below

/-- From an integer on a quotient stays above it. -/
theorem Rounds.le_of_ge (rounds : Rounds denominator round) {numerator whole : Nat}
    (le : whole * denominator ≤ numerator) : whole ≤ round numerator := by
  have above := rounds.mono le
  rw [rounds.exact whole] at above
  exact above

end Rcurl.Rounding
