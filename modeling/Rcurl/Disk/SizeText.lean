import Rcurl.Disk.Handler
import Rcurl.Foundation.Rounding

/-!
# Sizes as they are written

What `format_bytes` keeps of a size: the text is read back to a size that is half a hundredth of its unit
away at most, but for what a floating-point number cannot hold, and larger sizes are never written as
smaller ones, also where the unit changes.
-/

namespace Rcurl

open RustText (Text)

/-! ## The size that is written -/

/-- The unit a size is written in. -/
def unitOf (number : Nat) : Nat :=
  if number ≥ tb then tb
  else if number ≥ gb then gb
  else if number ≥ mb then mb
  else if number ≥ kb then kb
  else 1

/-- The size that is written, in hundredths of bytes. -/
def writtenSize (number : Nat) : Nat :=
  roundHalfEven (asF64 number * 100) (unitOf number) * unitOf number

/-- Rounding half to even goes to a nearest integer. -/
theorem roundHalfEven_rounds {denominator : Nat} (positive : 0 < denominator) :
    Rounding.Rounds denominator (roundHalfEven · denominator) := by
  refine ⟨positive, fun numerator => ?_⟩
  have whole : numerator / denominator * denominator + numerator % denominator = numerator := by
    rw [Nat.mul_comm]
    exact Nat.div_add_mod numerator denominator
  have rest : numerator % denominator < denominator := Nat.mod_lt numerator positive
  simp only [roundHalfEven]
  split_ifs with up
  · constructor
    · rw [Nat.add_mul, Nat.one_mul]
      omega
    · rw [Nat.add_mul, Nat.one_mul]
      omega
  · constructor
    · omega
    · omega

/-- An integer of 53 bits at most is not rounded. -/
theorem asF64_small {number : Nat} (small : number < 2 ^ 53) : asF64 number = number := if_pos small

/-- A larger integer is rounded to a multiple of a power of two between the powers of two around it. -/
theorem asF64_large {number : Nat} (large : 2 ^ 53 ≤ number) :
    asF64 number = roundHalfEven number (2 ^ (Nat.log2 number - 52)) * 2 ^ (Nat.log2 number - 52) :=
  if_neg (Nat.not_lt.mpr large)

/-- The power of two below an integer, as a multiple of the rounding unit. -/
theorem pow_log2_split {number : Nat} (large : 2 ^ 53 ≤ number) :
    2 ^ 52 * 2 ^ (Nat.log2 number - 52) = 2 ^ Nat.log2 number := by
  have exponent : 53 ≤ Nat.log2 number := (Nat.le_log2 (by omega)).mpr large
  rw [← Nat.pow_add]
  congr 1
  omega

/-- Rounding does not leave the powers of two around an integer. -/
theorem asF64_within {number : Nat} (large : 2 ^ 53 ≤ number) :
    2 ^ Nat.log2 number ≤ asF64 number ∧ asF64 number ≤ 2 ^ (Nat.log2 number + 1) := by
  have positive : 0 < 2 ^ (Nat.log2 number - 52) := Nat.two_pow_pos _
  have rounds := roundHalfEven_rounds positive
  have split := pow_log2_split large
  have below : 2 ^ Nat.log2 number ≤ number := Nat.log2_self_le (by omega)
  have above : number < 2 ^ (Nat.log2 number + 1) := Nat.lt_log2_self
  rw [asF64_large large]
  constructor
  · rw [← split]
    exact Nat.mul_le_mul_right _ (rounds.le_of_ge (by rw [split]; exact below))
  · rw [Nat.pow_succ, ← split, Nat.mul_assoc, Nat.mul_comm (2 ^ _) 2, ← Nat.mul_assoc] at above ⊢
    exact Nat.mul_le_mul_right _ (rounds.le_of_le (Nat.le_of_lt above))

/-- A conversion to a floating-point number keeps the order. -/
theorem asF64_mono {smaller larger : Nat} (le : smaller ≤ larger) : asF64 smaller ≤ asF64 larger := by
  by_cases small : larger < 2 ^ 53
  · rw [asF64_small small, asF64_small (Nat.lt_of_le_of_lt le small)]
    exact le
  · have large : 2 ^ 53 ≤ larger := Nat.not_lt.mp small
    have top := asF64_within large
    by_cases first : smaller < 2 ^ 53
    · rw [asF64_small first]
      have exponent : 53 ≤ Nat.log2 larger := (Nat.le_log2 (by omega)).mpr large
      have power : 2 ^ 53 ≤ 2 ^ Nat.log2 larger := Nat.pow_le_pow_right (by decide) exponent
      omega
    · have other : 2 ^ 53 ≤ smaller := Nat.not_lt.mp first
      rcases Nat.lt_or_ge (Nat.log2 smaller) (Nat.log2 larger) with apart | same
      · have step : 2 ^ (Nat.log2 smaller + 1) ≤ 2 ^ Nat.log2 larger :=
          Nat.pow_le_pow_right (by decide) apart
        exact (asF64_within other).2.trans (step.trans top.1)
      · have logs : Nat.log2 smaller = Nat.log2 larger := by
          apply Nat.le_antisymm _ same
          have below : 2 ^ Nat.log2 smaller ≤ smaller := Nat.log2_self_le (by omega)
          exact (Nat.le_log2 (by omega)).mpr (below.trans le)
        rw [asF64_large other, asF64_large large, logs]
        exact Nat.mul_le_mul_right _ ((roundHalfEven_rounds (Nat.two_pow_pos _)).mono le)

/-- What a floating-point number loses of a 64-bit integer. -/
def lostBytes (number : Nat) : Nat := if number < 2 ^ 53 then 0 else 1024

/-- A conversion to a floating-point number loses 1024 at most, and nothing below 53 bits. -/
theorem asF64_near {number : Nat} (fits : number < 2 ^ 64) :
    asF64 number ≤ number + lostBytes number ∧ number ≤ asF64 number + lostBytes number := by
  rw [lostBytes]
  by_cases small : number < 2 ^ 53
  · rw [asF64_small small, if_pos small]
    exact ⟨Nat.le_refl _, Nat.le_refl _⟩
  · rw [if_neg small]
    have near := (roundHalfEven_rounds (Nat.two_pow_pos (Nat.log2 number - 52))).nearest number
    have exponent : Nat.log2 number < 64 := (Nat.log2_lt (by omega)).mpr fits
    have unit : 2 ^ (Nat.log2 number - 52) ≤ 2 ^ 11 := Nat.pow_le_pow_right (by decide) (by omega)
    rw [asF64_large (Nat.not_lt.mp small)]
    have upper := near.upper
    have lower := near.lower
    omega

/-! ## Units -/

/-- Every unit is positive. -/
theorem unitOf_pos (number : Nat) : 0 < unitOf number := by
  unfold unitOf
  split_ifs <;> decide

/-- Where the unit changes, the larger size has reached its unit, the smaller one has not, and the one
unit is a multiple of the other. -/
theorem unitOf_changes {smaller larger : Nat} (le : smaller ≤ larger)
    (changes : unitOf smaller ≠ unitOf larger) :
    smaller < unitOf larger ∧ unitOf larger ≤ larger ∧ unitOf larger < 2 ^ 53 ∧
      ∃ whole, unitOf larger = whole * unitOf smaller := by
  have divides : ∀ {larger smaller : Nat}, smaller ∣ larger → ∃ whole, larger = whole * smaller :=
    fun ⟨whole, same⟩ => ⟨whole, by rw [same, Nat.mul_comm]⟩
  unfold unitOf tb gb mb kb at changes ⊢
  split_ifs at changes ⊢
  all_goals first
    | exact absurd rfl changes
    | omega
    | exact ⟨by omega, by omega, by decide, divides (by decide)⟩

/-- A size below a multiple of its unit is not written as a larger one. -/
theorem writtenSize_le {number whole : Nat} (small : whole * unitOf number < 2 ^ 53)
    (le : number ≤ whole * unitOf number) : writtenSize number ≤ 100 * (whole * unitOf number) := by
  have exact : asF64 number ≤ whole * unitOf number := by
    rw [asF64_small (Nat.lt_of_le_of_lt le small)]
    exact le
  have rounded : roundHalfEven (asF64 number * 100) (unitOf number) ≤ whole * 100 := by
    apply (roundHalfEven_rounds (unitOf_pos number)).le_of_le
    rw [Nat.mul_right_comm]
    exact Nat.mul_le_mul_right 100 exact
  calc
    writtenSize number ≤ whole * 100 * unitOf number := Nat.mul_le_mul_right _ rounded
    _ = 100 * (whole * unitOf number) := by rw [Nat.mul_right_comm, Nat.mul_comm]

/-- A size that has reached its unit is not written as a smaller one. -/
theorem le_writtenSize {number : Nat} (small : unitOf number < 2 ^ 53)
    (le : unitOf number ≤ number) : 100 * unitOf number ≤ writtenSize number := by
  have exact : unitOf number ≤ asF64 number := by
    have mono := asF64_mono le
    rw [asF64_small small] at mono
    exact mono
  apply Nat.mul_le_mul_right
  apply (roundHalfEven_rounds (unitOf_pos number)).le_of_ge
  rw [Nat.mul_comm]
  exact Nat.mul_le_mul_right 100 exact

/-- A larger size is not written as a smaller one, also in another unit. -/
theorem writtenSize_mono {smaller larger : Nat} (le : smaller ≤ larger) :
    writtenSize smaller ≤ writtenSize larger := by
  by_cases same : unitOf smaller = unitOf larger
  · rw [writtenSize, writtenSize, same]
    apply Nat.mul_le_mul_right
    apply (roundHalfEven_rounds (unitOf_pos larger)).mono
    exact Nat.mul_le_mul_right 100 (asF64_mono le)
  · obtain ⟨short, reached, small, whole, multiple⟩ := unitOf_changes le same
    rw [multiple] at short
    have below := writtenSize_le (by rw [← multiple]; exact small) (Nat.le_of_lt short)
    rw [← multiple] at below
    exact below.trans (le_writtenSize small reached)

/-- How far the size that is written can be from the size, in hundredths of bytes. -/
def sizeSlack (number : Nat) : Nat := unitOf number / 2 + 100 * lostBytes number

/-- The size that is written is near the size. -/
theorem writtenSize_near {number : Nat} (fits : number < 2 ^ 64) :
    writtenSize number ≤ 100 * number + sizeSlack number ∧
      100 * number ≤ writtenSize number + sizeSlack number := by
  have near := (roundHalfEven_rounds (unitOf_pos number)).nearest (asF64 number * 100)
  obtain ⟨above, below⟩ := asF64_near fits
  have upper := near.upper
  have lower := near.lower
  rw [writtenSize, sizeSlack]
  omega

/-! ## Reading a size back -/

/-- The unit of a name. -/
def unitNamed (name : Text) : Option Nat :=
  if name = "TB".toList then some tb
  else if name = "GB".toList then some gb
  else if name = "MB".toList then some mb
  else if name = "KB".toList then some kb
  else if name = "B".toList then some 1
  else none

/-- The hundredths of a number with two decimals or none. -/
def readHundredths (text : Text) : Nat :=
  match RustText.splitTwo '.' text with
  | some (whole, decimals) => Nat.ofDigitChars 10 (whole ++ decimals) 0
  | none => Nat.ofDigitChars 10 text 0 * 100

/-- A size that is read from its text, in hundredths of bytes. -/
def readSize (text : Text) : Option Nat :=
  (RustText.splitTwo ' ' text).bind fun parts =>
    (unitNamed parts.2).map (readHundredths parts.1 * ·)

/-- A digit more is ten times the number and the digit. -/
theorem ofDigitChars_push (digits : Text) {digit : Nat} (small : digit < 10) :
    Nat.ofDigitChars 10 (digits ++ RustText.decimal digit) 0 =
      10 * Nat.ofDigitChars 10 digits 0 + digit := by
  rw [Nat.ofDigitChars_append, RustText.decimal, Nat.toDigits_of_lt_base small,
    Nat.ofDigitChars_cons_digitChar_of_lt_ten small, Nat.ofDigitChars_nil]

/-- Two decimals are read back. -/
theorem readHundredths_twoDecimals (numerator denominator : Nat) :
    readHundredths (twoDecimals numerator denominator) =
      roundHalfEven (numerator * 100) denominator := by
  rw [readHundredths, twoDecimals]
  generalize roundHalfEven (numerator * 100) denominator = hundredths
  have absent : '.' ∉ RustText.decimal (hundredths / 100) := RustText.notMem_decimal rfl _
  rw [List.append_assoc, List.cons_append, RustText.splitTwo_first absent]
  simp only
  rw [← List.append_assoc, ofDigitChars_push _ (Nat.mod_lt _ (by decide)),
    ofDigitChars_push _ (Nat.mod_lt _ (by decide)), RustText.ofDigitChars_decimal]
  omega

/-- A size in a unit is read back. -/
theorem readSize_twoDecimals (numerator denominator : Nat) {name : Text} {unit : Nat}
    (known : unitNamed name = some unit) :
    readSize (twoDecimals numerator denominator ++ ' ' :: name) =
      some (roundHalfEven (numerator * 100) denominator * unit) := by
  have plain : ' ' ∉ twoDecimals numerator denominator := by
    simp only [twoDecimals, List.mem_append, List.mem_cons, not_or]
    exact ⟨⟨RustText.notMem_decimal rfl _, by decide, RustText.notMem_decimal rfl _⟩,
      RustText.notMem_decimal rfl _⟩
  rw [readSize, RustText.splitTwo_first plain, Option.bind_some, known, Option.map_some,
    readHundredths_twoDecimals]

/-- A number of bytes is read back. -/
theorem readSize_bytes (number : Nat) :
    readSize (RustText.decimal number ++ " B".toList) = some (number * 100) := by
  have split : RustText.splitTwo ' ' (RustText.decimal number ++ ' ' :: "B".toList) =
      some (RustText.decimal number, "B".toList) :=
    RustText.splitTwo_first (RustText.notMem_decimal rfl number)
  have whole : RustText.splitTwo '.' (RustText.decimal number) = none := by
    cases parts : RustText.splitTwo '.' (RustText.decimal number) with
    | none => rfl
    | some found =>
      have same := (RustText.splitTwo_iff.mp parts).2
      have inside : '.' ∈ RustText.decimal number := by
        rw [same]
        exact List.mem_append_right _ List.mem_cons_self
      exact absurd inside (RustText.notMem_decimal rfl number)
  show readSize (RustText.decimal number ++ ' ' :: "B".toList) = _
  rw [readSize, split, Option.bind_some, show unitNamed "B".toList = some 1 from by decide,
    Option.map_some, readHundredths, whole, RustText.ofDigitChars_decimal, Nat.mul_one]

/-- The text of a size is read back to the size that is written. -/
theorem readSize_formatBytes (bytes : UInt64) :
    readSize (formatBytes bytes) = some (writtenSize bytes.toNat) := by
  unfold formatBytes writtenSize unitOf
  extract_lets number
  split_ifs with tera giga mega kilo
  · exact readSize_twoDecimals _ tb (by decide)
  · exact readSize_twoDecimals _ gb (by decide)
  · exact readSize_twoDecimals _ mb (by decide)
  · exact readSize_twoDecimals _ kb (by decide)
  · have small : number < 2 ^ 53 := by
      have bound := Nat.not_le.mp kilo
      unfold kb at bound
      omega
    have exact := (roundHalfEven_rounds (Nat.zero_lt_one)).exact (number * 100)
    rw [Nat.mul_one] at exact
    rw [readSize_bytes, asF64_small small, Nat.mul_one, exact]

/-- A reader of the text of a size has the size, but for what was rounded. -/
def ReadsSize (text : Text) (bytes : UInt64) : Prop :=
  ∃ size, readSize text = some size ∧
    size ≤ 100 * bytes.toNat + sizeSlack bytes.toNat ∧
      100 * bytes.toNat ≤ size + sizeSlack bytes.toNat

/-- Every size is read back, near the size. -/
theorem readsSize_formatBytes (bytes : UInt64) : ReadsSize (formatBytes bytes) bytes :=
  ⟨writtenSize bytes.toNat, readSize_formatBytes bytes, writtenSize_near bytes.toNat_lt⟩

end Rcurl
