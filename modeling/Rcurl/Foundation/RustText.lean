import Mathlib.Algebra.Ring.Nat
import Mathlib.Tactic.Common

/-!
# Text operations of the standard library

The operations on `str` and `Path` that the command line tool uses, over lists of characters.
-/

namespace Rcurl.RustText

/-- A text. -/
abbrev Text := List Char

/-- `char::is_whitespace`: the characters with the Unicode property `White_Space`. -/
def isWhitespace (c : Char) : Bool :=
  (9 ≤ c.toNat && c.toNat ≤ 13) || c.toNat == 32 || c.toNat == 0x85 || c.toNat == 0xA0 ||
    c.toNat == 0x1680 || (0x2000 ≤ c.toNat && c.toNat ≤ 0x200A) || c.toNat == 0x2028 ||
    c.toNat == 0x2029 || c.toNat == 0x202F || c.toNat == 0x205F || c.toNat == 0x3000

/-- `str::trim_start`. -/
def trimStart (text : Text) : Text := text.dropWhile isWhitespace

/-- `str::trim`. -/
def trim (text : Text) : Text := ((trimStart text).reverse.dropWhile isWhitespace).reverse

/-- `splitn(2, separator)`, when it yields two parts: the texts around the first separator. -/
def splitTwo (separator : Char) (text : Text) : Option (Text × Text) :=
  match text.dropWhile (· ≠ separator) with
  | [] => none
  | _ :: rest => some (text.takeWhile (· ≠ separator), rest)

/-- `Path::file_name`: the last component, unless it is the parent directory or there is none. -/
def fileName (path : Text) : Option Text :=
  match ((path.splitOn '/').filter fun part => part ≠ [] ∧ part ≠ ['.']).getLast? with
  | some name => if name = ['.', '.'] then none else some name
  | none => none

/-- What stands behind the last separator, or all. -/
def afterLast (separator : Char) (text : Text) : Text :=
  (text.reverse.takeWhile (· ≠ separator)).reverse

/-- A number in decimal. -/
def decimal (number : Nat) : Text := Nat.toDigits 10 number

/-- `{:<width}`. -/
def padRight (width : Nat) (text : Text) : Text := text ++ List.replicate (width - text.length) ' '

/-- `{:>width}`. -/
def padLeft (width : Nat) (text : Text) : Text := List.replicate (width - text.length) ' ' ++ text

/-- `str::parse` at an unsigned integer type with so many bits. -/
def parseUnsigned (bits : Nat) (text : Text) : Option Nat :=
  let digits := if text.head? = some '+' then text.tail else text
  if digits ≠ [] ∧ digits.all Char.isDigit ∧ Nat.ofDigitChars 10 digits 0 < 2 ^ bits then
    some (Nat.ofDigitChars 10 digits 0)
  else none

/-- Trimming takes a part of the text. -/
theorem trim_infix (text : Text) : trim text <:+: text := by
  have back : trim text <+: trimStart text := by
    rw [trim, ← List.reverse_suffix, List.reverse_reverse]
    exact List.dropWhile_suffix isWhitespace
  exact back.isInfix.trans (List.dropWhile_suffix isWhitespace).isInfix

/-- Dropping white space drops nothing else. -/
theorem countP_dropWhile (text : Text) :
    (text.dropWhile isWhitespace).countP (fun c => !isWhitespace c) =
      text.countP fun c => !isWhitespace c := by
  have front : (text.takeWhile isWhitespace).countP (fun c => !isWhitespace c) = 0 := by
    apply List.countP_eq_zero.mpr
    intro c member
    rw [List.all_eq_true.mp List.all_takeWhile c member]
    decide
  conv_rhs => rw [← List.takeWhile_append_dropWhile (p := isWhitespace) (l := text)]
  rw [List.countP_append, front, Nat.zero_add]

/-- Trimming keeps every other character. -/
theorem countP_trim (text : Text) :
    (trim text).countP (fun c => !isWhitespace c) = text.countP fun c => !isWhitespace c := by
  rw [trim, List.countP_reverse, countP_dropWhile, List.countP_reverse, trimStart, countP_dropWhile]

/-- A text of which a prefix is left alike by trimming goes on with white space only. -/
theorem isWhitespace_of_trim_eq {front back : Text} (same : trim front = trim (front ++ back)) :
    ∀ c ∈ back, isWhitespace c = true := by
  have counts := congrArg (List.countP fun c => !isWhitespace c) same
  rw [countP_trim, countP_trim, List.countP_append] at counts
  have none : back.countP (fun c => !isWhitespace c) = 0 := by omega
  intro c member
  simpa using List.countP_eq_zero.mp none c member

/-- A text is split at its first separator. -/
theorem splitTwo_iff {separator : Char} {text front back : Text} :
    splitTwo separator text = some (front, back) ↔
      separator ∉ front ∧ text = front ++ separator :: back := by
  unfold splitTwo
  constructor
  · intro split
    cases rest : text.dropWhile (· ≠ separator) with
    | nil =>
      rw [rest] at split
      cases split
    | cons found tail =>
      rw [rest, Option.some.injEq, Prod.mk.injEq] at split
      have whole := List.takeWhile_append_dropWhile (p := (· ≠ separator)) (l := text)
      have stop := List.head?_dropWhile_not (· ≠ separator) text
      rw [rest] at stop whole
      rw [split.1, split.2] at whole
      have same : found = separator := by simpa using stop
      rw [same] at whole
      refine ⟨fun member => ?_, whole.symm⟩
      rw [← split.1] at member
      have other := List.all_eq_true.mp List.all_takeWhile separator member
      simp at other
  · rintro ⟨absent, rfl⟩
    have passes : ∀ c ∈ front, decide (c ≠ separator) = true := by
      intro c member
      exact decide_eq_true fun same => absent (same ▸ member)
    rw [List.dropWhile_append_of_pos passes, List.takeWhile_append_of_pos passes]
    simp

/-- What stands before the first separator, and what stands behind it. -/
theorem splitTwo_first {separator : Char} {front back : Text} (absent : separator ∉ front) :
    splitTwo separator (front ++ separator :: back) = some (front, back) :=
  splitTwo_iff.mpr ⟨absent, rfl⟩

/-- What stands behind the last separator is found there. -/
theorem afterLast_append {separator : Char} (front : Text) {back : Text} (absent : separator ∉ back) :
    afterLast separator (front ++ separator :: back) = back := by
  have passes : ∀ c ∈ back.reverse, decide (c ≠ separator) = true := by
    intro c member
    exact decide_eq_true fun same => absent (same ▸ List.mem_reverse.mp member)
  have stops : (separator :: front.reverse).takeWhile (· ≠ separator) = [] := by simp
  rw [afterLast, List.reverse_append, List.reverse_cons, List.append_assoc, List.singleton_append,
    List.takeWhile_append_of_pos passes, stops, List.append_nil,
    List.reverse_reverse]

/-- A name without a separator is the last component of itself. -/
theorem fileName_plain {path : Text} (plain : '/' ∉ path)
    (proper : path ≠ [] ∧ path ≠ ['.'] ∧ path ≠ ['.', '.']) : fileName path = some path := by
  have whole : path.splitOn '/' = [path] := by
    apply List.splitOnP_eq_singleton
    intro c member
    exact decide_eq_false fun same => plain (same ▸ member)
  have kept : [path].filter (fun part => part ≠ [] ∧ part ≠ ['.']) = [path] := by
    apply List.filter_eq_self.mpr
    intro part member
    rw [List.mem_singleton.mp member]
    exact decide_eq_true ⟨proper.1, proper.2.1⟩
  unfold fileName
  rw [whole, kept, List.getLast?_singleton]
  exact if_neg proper.2.2

/-- The digits of a number. -/
theorem isDigit_decimal {number : Nat} {c : Char} (member : c ∈ decimal number) :
    c.isDigit = true :=
  Nat.isDigit_of_mem_toDigits (by decide) (by decide) member

/-- The digits of a number have no separator. -/
theorem notMem_decimal {separator : Char} (other : separator.isDigit = false) (number : Nat) :
    separator ∉ decimal number := by
  intro member
  rw [isDigit_decimal member] at other
  contradiction

/-- A number has at least one digit. -/
theorem decimal_ne_nil (number : Nat) : decimal number ≠ [] := Nat.toDigits_ne_nil

/-- The digits of a number have its value. -/
theorem ofDigitChars_decimal (number : Nat) : Nat.ofDigitChars 10 (decimal number) 0 = number :=
  Nat.ofDigitChars_ten_toDigits

/-- A number that fits its type is read back. -/
theorem parseUnsigned_decimal {bits number : Nat} (narrow : number < 2 ^ bits) :
    parseUnsigned bits (decimal number) = some number := by
  have value := ofDigitChars_decimal number
  have digits : (decimal number).all Char.isDigit = true :=
    List.all_eq_true.mpr fun c member => isDigit_decimal member
  have unsigned : (decimal number).head? ≠ some '+' := by
    intro plus
    exact absurd (isDigit_decimal (List.mem_of_mem_head? plus)) (by decide)
  rw [← value] at narrow
  rw [parseUnsigned, if_neg unsigned]
  rw [if_pos ⟨decimal_ne_nil number, digits, narrow⟩, value]

/-- A number that is read fits its type. -/
theorem parseUnsigned_lt {bits : Nat} {text : Text} {number : Nat}
    (parsed : parseUnsigned bits text = some number) : number < 2 ^ bits := by
  unfold parseUnsigned at parsed
  extract_lets digits at parsed
  by_cases sound : digits ≠ [] ∧ digits.all Char.isDigit ∧ Nat.ofDigitChars 10 digits 0 < 2 ^ bits
  · rw [if_pos sound, Option.some.injEq] at parsed
    rw [← parsed]
    exact sound.2.2
  · rw [if_neg sound] at parsed
    cases parsed

example : splitTwo ':' "Host: a:b".toList = some ("Host".toList, " a:b".toList) := by decide

example : fileName "dir/a.txt/".toList = some "a.txt".toList := by decide

end Rcurl.RustText
