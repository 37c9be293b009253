import Mathlib.Tactic.Common

/-!
# UTF-8 texts as bytes

The bytes a text is written as and the text that bytes are read as. The one fact beyond the round
trip is about torn writes: what a prefix of a text's bytes reads as, if it reads at all, is a
prefix of the text.
-/

namespace Rcurl.Utf8

/-- The bytes of a text. -/
def encode (text : List Char) : List UInt8 := text.flatMap String.utf8EncodeChar

/-- The text of bytes, when they are UTF-8. -/
def decode (bytes : List UInt8) : Option (List Char) :=
  bytes.toByteArray.utf8Decode?.map Array.toList

/-- The bytes of a text as a byte array. -/
theorem toByteArray_encode (text : List Char) : (encode text).toByteArray = text.utf8Encode := rfl

/-- What is written is read back. -/
theorem decode_encode (text : List Char) : decode (encode text) = some text := by
  rw [decode, toByteArray_encode, List.utf8Decode?_utf8Encode]
  rfl

/-- Bytes that read as a text are the bytes of that text. -/
theorem utf8Encode_of_decode {bytes : List UInt8} {text : List Char}
    (read : decode bytes = some text) : text.utf8Encode = bytes.toByteArray := by
  rw [decode, Option.map_eq_some_iff] at read
  obtain ⟨chars, decoded, rfl⟩ := read
  have known : bytes.toByteArray.utf8Decode?.isSome := by rw [decoded]; rfl
  have back := ByteArray.utf8Encode_get_utf8Decode? (h := known)
  simpa [decoded] using back

/-- Reading loses nothing: the text is written as the bytes it was read from. -/
theorem encode_of_decode {bytes : List UInt8} {text : List Char}
    (read : decode bytes = some text) : encode text = bytes := by
  rw [← List.toByteArray_inj, toByteArray_encode]
  exact utf8Encode_of_decode read

/-- A prefix of a text's bytes reads as a prefix of the text, if it reads at all. -/
theorem prefix_of_decode {text part : List Char} {bytes rest : List UInt8}
    (written : bytes ++ rest = encode text) (read : decode bytes = some part) : part <+: text := by
  have whole := congrArg List.toByteArray written
  rw [List.toByteArray_append, toByteArray_encode, ← utf8Encode_of_decode read] at whole
  exact List.isPrefix_of_utf8Encode_append_eq_utf8Encode rest.toByteArray whole

/-- The bytes of an ASCII text are the codes of its characters. -/
theorem code_of_mem_encode {text : List Char} (ascii : ∀ c ∈ text, c.toNat < 128) {byte : UInt8}
    (member : byte ∈ encode text) : ∃ c ∈ text, byte.toNat = c.toNat := by
  obtain ⟨c, known, part⟩ := List.mem_flatMap.mp member
  have bound : c.val.toNat < 128 := ascii c known
  have small : c.utf8Size = 1 := by
    rw [Char.utf8Size_eq_one_iff, UInt32.le_iff_toNat_le]
    exact Nat.le_of_lt_succ bound
  rw [String.utf8EncodeChar_eq_singleton small, List.mem_singleton] at part
  refine ⟨c, known, ?_⟩
  rw [part, UInt32.toNat_toUInt8]
  exact Nat.mod_eq_of_lt (by omega)

end Rcurl.Utf8
