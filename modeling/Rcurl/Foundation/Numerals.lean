import Rcurl.Foundation.RustText
import Mathlib.Algebra.Order.BigOperators.Group.List
import Mathlib.Algebra.Order.Ring.Nat

/-!
# Numbers in a text

The numbers that stand in a text, in order, whatever stands between them. A text that is put together from
numbers and other text between them gives the numbers back, a part at a time. The last section is about
numbers that are summed up: the smallest, the largest, and the whole part of the mean.
-/

namespace Rcurl.Numerals

open RustText (Text decimal)

/-- The numbers of a text: its longest runs of digits. -/
def read (text : Text) : List Nat :=
  ((text.splitOnP fun c => !c.isDigit).filter (· ≠ [])).map (Nat.ofDigitChars 10 · 0)

/-- The text holds no digit. -/
def Plain (text : Text) : Prop := text.any Char.isDigit = false

instance decidablePlain (text : Text) : Decidable (Plain text) :=
  inferInstanceAs (Decidable (text.any Char.isDigit = false))

/-- The text stands between numbers: it is not empty and holds no digit. -/
structure Between (text : Text) : Prop where
  /-- It is not empty. -/
  some : text ≠ []
  /-- It holds no digit. -/
  plain : Plain text

/-- Every character of such a text. -/
theorem Plain.isDigit_false {text : Text} (plain : Plain text) {c : Char} (member : c ∈ text) :
    c.isDigit = false := by
  cases digit : c.isDigit with
  | false => rfl
  | true =>
    have any : text.any Char.isDigit = true := List.any_eq_true.mpr ⟨c, member, digit⟩
    rw [plain] at any
    contradiction

/-- Such a text without its first character. -/
theorem Plain.tail {c : Char} {text : Text} (plain : Plain (c :: text)) : Plain text :=
  (Bool.or_eq_false_iff.mp plain).2

/-- No text has no numbers. -/
@[simp] theorem read_nil : read [] = [] := rfl

/-- Texts around anything but a digit have their numbers one behind the other. -/
theorem read_append (front : Text) {c : Char} (other : c.isDigit = false) (back : Text) :
    read (front ++ c :: back) = read front ++ read back := by
  have separates : (!c.isDigit) = true := by rw [other]; rfl
  rw [read, List.splitOnP_append_cons front back separates, List.filter_append, List.map_append]
  rfl

/-- Text without digits has no numbers, in front of any other text. -/
theorem read_plain {front : Text} (plain : Plain front) (back : Text) :
    read (front ++ back) = read back := by
  induction front with
  | nil => rfl
  | cons c front ih =>
    have first := read_append [] (plain.isDigit_false List.mem_cons_self) (front ++ back)
    rw [List.nil_append, read_nil, List.nil_append] at first
    rw [List.cons_append, first, ih plain.tail]

/-- A number has itself as its only piece. -/
theorem pieces_decimal (number : Nat) :
    ((decimal number).splitOnP fun c => !c.isDigit).filter (· ≠ []) = [decimal number] := by
  have digits : ∀ c ∈ decimal number, (!c.isDigit) = false := by
    intro c member
    rw [RustText.isDigit_decimal member]
    rfl
  rw [List.splitOnP_eq_singleton digits]
  exact List.filter_eq_self.mpr fun text member => by
    rw [List.mem_singleton.mp member]
    exact decide_eq_true (RustText.decimal_ne_nil number)

/-- A number at the end is read. -/
theorem read_end (number : Nat) : read (decimal number) = [number] := by
  rw [read, pieces_decimal, List.map_singleton, RustText.ofDigitChars_decimal]

/-- A number is read with other text behind it, and then the numbers behind that. -/
theorem read_decimal (number : Nat) {middle : Text} (between : Between middle) (back : Text) :
    read (decimal number ++ (middle ++ back)) = number :: read back := by
  cases middle with
  | nil => exact absurd rfl between.some
  | cons c middle =>
    have first := between.plain.isDigit_false List.mem_cons_self
    rw [List.cons_append, read_append _ first, read_end, read_plain between.plain.tail]
    rfl

/-- A number is read with other text behind it at the end. -/
theorem read_last (number : Nat) {middle : Text} (between : Between middle) :
    read (decimal number ++ middle) = [number] := by
  have whole := read_decimal number between []
  rwa [List.append_nil] at whole

/-! ## Numbers that are summed up -/

/-- What a summary says about numbers: the smallest, the largest, and the whole part of the mean. -/
structure Summary (numbers : List Nat) (least greatest mean : Nat) : Prop where
  /-- The smallest is one of them. -/
  least_mem : least ∈ numbers
  /-- The largest is one of them. -/
  greatest_mem : greatest ∈ numbers
  /-- All lie between the two. -/
  between : ∀ number ∈ numbers, least ≤ number ∧ number ≤ greatest
  /-- The mean is not above the exact one. -/
  mean_le : mean * numbers.length ≤ numbers.sum
  /-- It is less than one below it. -/
  lt_mean : numbers.sum < (mean + 1) * numbers.length

/-- The least, the greatest and the truncated mean sum numbers up. -/
theorem summary_of_some {numbers : List Nat} (some : numbers ≠ []) :
    Summary numbers (numbers.min?.getD 0) (numbers.max?.getD 0) (numbers.sum / numbers.length) := by
  have positive : 0 < numbers.length := List.length_pos_iff.mpr some
  cases least : numbers.min? with
  | none => exact absurd (List.min?_eq_none_iff.mp least) some
  | some low =>
    cases greatest : numbers.max? with
    | none => exact absurd (List.max?_eq_none_iff.mp greatest) some
    | some high =>
      have lower := List.min?_eq_some_iff.mp least
      have upper := List.max?_eq_some_iff.mp greatest
      exact {
        least_mem := lower.1
        greatest_mem := upper.1
        between := fun number member => ⟨lower.2 number member, upper.2 number member⟩
        mean_le := Nat.div_mul_le_self _ _
        lt_mean := by
          rw [Nat.mul_comm]
          exact Nat.lt_mul_div_succ _ positive }

/-- The mean of a summary lies between its extremes. -/
theorem Summary.ordered {numbers : List Nat} {least greatest mean : Nat}
    (summary : Summary numbers least greatest mean) : least ≤ mean ∧ mean ≤ greatest := by
  have low : numbers.length * least ≤ numbers.sum :=
    List.card_nsmul_le_sum numbers least fun number member => (summary.between number member).1
  have high : numbers.sum ≤ numbers.length * greatest :=
    List.sum_le_card_nsmul numbers greatest fun number member => (summary.between number member).2
  constructor
  · have strict : least * numbers.length < (mean + 1) * numbers.length := by
      rw [Nat.mul_comm least]
      exact Nat.lt_of_le_of_lt low summary.lt_mean
    exact Nat.le_of_lt_succ (Nat.lt_of_mul_lt_mul_right strict)
  · have positive : 0 < numbers.length := List.length_pos_of_mem summary.least_mem
    have loose : mean * numbers.length ≤ greatest * numbers.length := by
      rw [Nat.mul_comm greatest]
      exact summary.mean_le.trans high
    exact Nat.le_of_mul_le_mul_right loose positive

end Rcurl.Numerals
