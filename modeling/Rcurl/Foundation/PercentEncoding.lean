import Rcurl.Foundation.Utf8

/-!
# Percent encoding

A text with every character outside a plain set written as the escapes of its bytes. Escapes are longer
than the character they stand for, so a text is written as itself only when all of it is plain.
-/

namespace Rcurl.Percent

/-- A hexadecimal digit, in upper case. -/
def hexDigit (nibble : Nat) : Char := nibble.digitChar.toUpper

/-- The escape of a byte. -/
def escape (byte : UInt8) : List Char :=
  ['%', hexDigit (byte.toNat / 16), hexDigit (byte.toNat % 16)]

/-- A character as it is, or the escapes of its bytes. -/
def encodeChar (plain : Char → Bool) (c : Char) : List Char :=
  if plain c then [c] else (Utf8.encode [c]).flatMap escape

/-- A text with the characters escaped that are not plain. -/
def encode (plain : Char → Bool) (text : List Char) : List Char := text.flatMap (encodeChar plain)

example : encode Char.isAlphanum "aé%".toList = "a%C3%A9%25".toList := by decide

variable {plain : Char → Bool}

/-- The escapes of a character are longer than one. -/
theorem one_lt_encodeChar {c : Char} (other : plain c = false) : 1 < (encodeChar plain c).length := by
  have bytes : Utf8.encode [c] = String.utf8EncodeChar c := List.flatMap_singleton _ _
  have some_byte : 0 < (String.utf8EncodeChar c).length := by
    rw [String.length_utf8EncodeChar]
    exact c.utf8Size_pos
  rw [encodeChar, other, bytes, if_neg Bool.false_ne_true]
  cases shape : String.utf8EncodeChar c with
  | nil =>
    rw [shape] at some_byte
    exact absurd some_byte (Nat.lt_irrefl 0)
  | cons byte rest =>
    rw [List.flatMap_cons, List.length_append]
    have three : (escape byte).length = 3 := rfl
    omega

/-- Encoding never shortens a text. -/
theorem length_le_encode (plain : Char → Bool) (text : List Char) :
    text.length ≤ (encode plain text).length := by
  induction text with
  | nil => exact Nat.le_refl 0
  | cons c text ih =>
    have first : 1 ≤ (encodeChar plain c).length := by
      cases known : plain c with
      | true =>
        rw [encodeChar, if_pos known]
        exact Nat.le_refl 1
      | false => exact Nat.le_of_lt (one_lt_encodeChar known)
    have whole : encode plain (c :: text) = encodeChar plain c ++ encode plain text :=
      List.flatMap_cons
    rw [whole, List.length_append, List.length_cons]
    omega

/-- A text is written as itself exactly when all of it is plain. -/
theorem encode_eq_self_iff (text : List Char) :
    encode plain text = text ↔ ∀ c ∈ text, plain c = true := by
  induction text with
  | nil => exact iff_of_true rfl fun c absent => absurd absent List.not_mem_nil
  | cons c text ih =>
    have whole : encode plain (c :: text) = encodeChar plain c ++ encode plain text :=
      List.flatMap_cons
    rw [List.forall_mem_cons, ← ih, whole]
    cases known : plain c with
    | true =>
      have kept : encodeChar plain c = [c] := if_pos known
      rw [kept, List.singleton_append, List.cons.injEq, and_iff_right rfl, and_iff_right rfl]
    | false =>
      refine iff_of_false (fun same => ?_) fun both => Bool.noConfusion both.1
      have longer := one_lt_encodeChar known
      have rest := length_le_encode plain text
      have lengths := congrArg List.length same
      rw [List.length_append, List.length_cons] at lengths
      omega

end Rcurl.Percent
