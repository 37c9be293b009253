import Mathlib.Tactic.Common

/-!
# A pretty-printed JSON array of one-field objects

The layout a pretty printer gives a list of objects with one string field, and a reader of exactly
that layout. Written lists read back, and no proper prefix of a written list reads at all: the
reader has to see the last bracket, and nothing may follow it.
-/

namespace Rcurl.PrettyJson

/-- A text. -/
abbrev Text := List Char

/-- The characters written after a backslash, and the letters they are written as. Control
characters without a letter are written as they are here. -/
def escapes : List (Char × Char) :=
  [('"', '"'), ('\\', '\\'), ('\n', 'n'), ('\r', 'r'), ('\t', 't'), (Char.ofNat 8, 'b'),
    (Char.ofNat 12, 'f')]

/-- The characters by their letters. -/
def unescapes : List (Char × Char) := escapes.map fun entry => (entry.2, entry.1)

/-- One character inside a string. -/
def writeChar (c : Char) : Text :=
  match escapes.lookup c with
  | some letter => ['\\', letter]
  | none => [c]

/-- A string and its closing quote; the opening one belongs to the text before it. -/
def writeString (value : Text) : Text := value.flatMap writeChar ++ ['"']

/-- Read up to the closing quote: the value and the text after it. -/
def readString : Text → Option (Text × Text)
  | [] => none
  | '"' :: rest => some ([], rest)
  | '\\' :: letter :: rest =>
    (unescapes.lookup letter).bind fun c => (readString rest).map fun read => (c :: read.1, read.2)
  | c :: rest => (readString rest).map fun read => (c :: read.1, read.2)

/-- Read exactly the given characters. -/
def expect : Text → Text → Option Text
  | [], text => some text
  | c :: wanted, d :: text => if c = d then expect wanted text else none
  | _ :: _, [] => none

section Layout

variable (key : Text)

/-- The text before a field's value. -/
def itemOpen : Text := "\n  \x7b\n    \"".toList ++ (key ++ "\": \"".toList)

/-- The text after a field's value. -/
def itemClose : Text := "\n  \x7d".toList

/-- The end of the array. -/
def arrayClose : Text := ['\n', ']']

/-- One object. -/
def writeItem (value : Text) : Text := itemOpen key ++ (writeString value ++ itemClose)

/-- The objects of a list that is not empty, and the end of the array. -/
def writeItems : List Text → Text
  | [] => []
  | [value] => writeItem key value ++ arrayClose
  | value :: values => writeItem key value ++ ',' :: writeItems values

/-- The whole array. -/
def write (values : List Text) : Text :=
  if values = [] then ['[', ']'] else '[' :: writeItems key values

/-- Read one object: its value and the text after it. -/
def readItem (text : Text) : Option (Text × Text) :=
  (expect (itemOpen key) text).bind fun text =>
    (readString text).bind fun read =>
      (expect itemClose read.2).map fun text => (read.1, text)

/-- Read objects up to the end of the text. -/
def readItems : Nat → Text → Option (List Text)
  | 0, _ => none
  | fuel + 1, text =>
    (readItem key text).bind fun item =>
      if item.2 = arrayClose then some [item.1]
      else (expect [','] item.2).bind fun text => (readItems fuel text).map (item.1 :: ·)

/-- Read the whole text as an array. -/
def read (text : Text) : Option (List Text) :=
  if text = ['[', ']'] then some []
  else (expect ['['] text).bind (readItems key text.length)

end Layout

/-! ## Reading what was written -/

/-- Expected characters are read off. -/
@[simp] theorem expect_append (wanted rest : Text) : expect wanted (wanted ++ rest) = some rest := by
  induction wanted with
  | nil => rfl
  | cons c wanted ih => rw [List.cons_append, expect, if_pos rfl, ih]

/-- What was read off was there. -/
theorem eq_append_of_expect {wanted text rest : Text} (read : expect wanted text = some rest) :
    text = wanted ++ rest := by
  induction wanted generalizing text with
  | nil =>
    rw [expect, Option.some.injEq] at read
    rw [read, List.nil_append]
  | cons c wanted ih =>
    cases text with
    | nil => contradiction
    | cons d text =>
      rw [expect, Option.ite_none_right_eq_some] at read
      rw [read.1, ih read.2, List.cons_append]

/-- An escaped character is read by its letter. -/
theorem readString_letter (letter : Char) (rest : Text) :
    readString ('\\' :: letter :: rest) = (unescapes.lookup letter).bind fun c =>
      (readString rest).map fun read => (c :: read.1, read.2) := by
  rw [readString]

/-- A written character is read as itself. -/
theorem readString_writeChar (c : Char) (rest : Text) :
    readString (writeChar c ++ rest) = (readString rest).map fun read => (c :: read.1, read.2) := by
  have inverse : ∀ entry ∈ escapes, unescapes.lookup entry.2 = some entry.1 := by decide
  unfold writeChar
  split
  · rename_i letter known
    obtain ⟨before, after, shape, _⟩ := List.lookup_eq_some_iff.mp known
    have listed := inverse (c, letter) (by rw [shape]; simp)
    rw [List.cons_append, List.singleton_append, readString_letter, listed, Option.bind_some]
  · rename_i unknown
    have free : c ≠ '"' ∧ c ≠ '\\' := by
      constructor <;> rintro rfl <;> exact absurd unknown (by decide)
    rw [List.singleton_append, readString.eq_def]
    split <;> simp_all

/-- A written string is read back, and the reader stops behind its closing quote. -/
theorem readString_writeString (value rest : Text) :
    readString (writeString value ++ rest) = some (value, rest) := by
  induction value with
  | nil => rfl
  | cons c value ih =>
    rw [writeString, List.flatMap_cons, List.append_assoc, List.append_assoc, readString_writeChar,
      ← List.append_assoc, ← writeString, ih]
    rfl

/-- A written object is read back, whatever follows. -/
theorem readItem_writeItem (key value rest : Text) :
    readItem key (writeItem key value ++ rest) = some (value, rest) := by
  rw [writeItem, List.append_assoc, List.append_assoc, readItem, expect_append, Option.bind_some,
    readString_writeString, Option.bind_some, expect_append]
  rfl

/-- An object is never empty. -/
theorem writeItem_length_pos (key value : Text) : 0 < (writeItem key value).length := by
  simp only [writeItem, writeString, List.length_append, List.length_cons, List.length_nil]
  omega

/-- An object starts on a new line. -/
theorem readItems_bracket (key rest : Text) (fuel : Nat) :
    readItems key fuel (']' :: rest) = none := by
  cases fuel with
  | zero => rfl
  | succ fuel => rfl

/-- Written objects are read back with fuel for each of them. -/
theorem readItems_writeItems (key : Text) (values : List Text) (inhabited : values ≠ []) :
    ∀ fuel, values.length ≤ fuel → readItems key fuel (writeItems key values) = some values := by
  induction values with
  | nil => contradiction
  | cons value values ih =>
    intro fuel enough
    cases fuel with
    | zero => contradiction
    | succ fuel =>
      cases values with
      | nil => rw [writeItems, readItems, readItem_writeItem, Option.bind_some, if_pos rfl]
      | cons next values =>
        have later := ih (List.cons_ne_nil _ _) fuel (Nat.le_of_succ_le_succ enough)
        have more : ',' :: writeItems key (next :: values) ≠ arrayClose := by
          intro same
          exact absurd (List.cons.inj same).1 (by decide)
        rw [writeItems, readItems, readItem_writeItem, Option.bind_some, if_neg more]
        · show (readItems key fuel _).map _ = _
          rw [later]
          rfl
        · exact fun absent => List.cons_ne_nil _ _ absent

/-- Objects take at least a character each. -/
theorem length_le_writeItems (key : Text) (values : List Text) :
    values.length ≤ (writeItems key values).length := by
  induction values with
  | nil => exact Nat.le_refl 0
  | cons value values ih =>
    have positive := writeItem_length_pos key value
    cases values with
    | nil =>
      simp only [writeItems, List.length_append, List.length_cons, List.length_nil]
      omega
    | cons next values =>
      simp only [writeItems, List.length_append, List.length_cons] at ih ⊢
      omega

/-- A written list is read back. -/
theorem read_write (key : Text) (values : List Text) : read key (write key values) = some values := by
  by_cases empty : values = []
  · rw [empty]
    rfl
  · have fits := length_le_writeItems key values
    have items := readItems_writeItems key values empty
      ((writeItems key values).length + 1) (Nat.le_succ_of_le fits)
    have opened : '[' :: writeItems key values ≠ ['[', ']'] := by
      intro same
      rw [(List.cons.inj same).2, readItems_bracket] at items
      contradiction
    rw [write, if_neg empty, read, if_neg opened]
    exact items

/-! ## A prefix is not read -/

/-- The reader does not look behind the characters it expects. -/
theorem expect_extend {wanted text rest : Text} (read : expect wanted text = some rest)
    (more : Text) : expect wanted (text ++ more) = some (rest ++ more) := by
  rw [eq_append_of_expect read, List.append_assoc, expect_append]

/-- The reader of a string does not look behind its closing quote. -/
theorem readString_extend (text more : Text) : ∀ {found : Text × Text},
    readString text = some found → readString (text ++ more) = some (found.1, found.2 ++ more) := by
  fun_induction readString text with
  | case1 => intro found read; contradiction
  | case2 rest =>
    intro found read
    rw [← Option.some.inj read]
    rfl
  | case3 letter rest ih =>
    intro found read
    obtain ⟨c, known, tail⟩ := Option.bind_eq_some_iff.mp read
    obtain ⟨later, inner, rfl⟩ := Option.map_eq_some_iff.mp tail
    rw [List.cons_append, List.cons_append, readString_letter, known, Option.bind_some, ih inner]
    rfl
  | case4 c rest quote escaped ih =>
    intro found read
    obtain ⟨later, inner, rfl⟩ := Option.map_eq_some_iff.mp read
    rw [List.cons_append, readString.eq_def]
    split
    · contradiction
    · rename_i same
      exact absurd (List.cons.inj same).1 quote
    · rename_i letter tail _ same
      obtain ⟨rfl, _⟩ := List.cons.inj same
      -- a lone backslash ends the text, and nothing was read after it
      cases rest with
      | nil => contradiction
      | cons d rest => exact (escaped d rest rfl rfl).elim
    · rename_i d tail _ _ same
      obtain ⟨rfl, rfl⟩ := List.cons.inj same
      rw [ih inner]
      rfl

/-- The reader of an object does not look behind it. -/
theorem readItem_extend {key text : Text} {item : Text × Text} (read : readItem key text = some item)
    (more : Text) : readItem key (text ++ more) = some (item.1, item.2 ++ more) := by
  obtain ⟨opened, first, later⟩ := Option.bind_eq_some_iff.mp read
  obtain ⟨string, second, last⟩ := Option.bind_eq_some_iff.mp later
  obtain ⟨closed, third, rfl⟩ := Option.map_eq_some_iff.mp last
  rw [readItem, expect_extend first, Option.bind_some, readString_extend _ _ second,
    Option.bind_some, expect_extend third]
  rfl

/-- Objects that end a text do not end a longer one. -/
theorem readItems_extend (key : Text) {more : Text} (longer : more ≠ []) (fuel : Nat) :
    ∀ {text : Text} {values : List Text}, readItems key fuel text = some values →
      ∀ fuel', readItems key fuel' (text ++ more) = none := by
  induction fuel with
  | zero => intro text values read; contradiction
  | succ fuel ih =>
    intro text values read fuel'
    cases fuel' with
    | zero => rfl
    | succ fuel' =>
      obtain ⟨item, first, later⟩ := Option.bind_eq_some_iff.mp read
      rw [readItems, readItem_extend first, Option.bind_some]
      dsimp only at later ⊢
      split_ifs at later with ended
      · have open' : item.2 ++ more ≠ arrayClose := by
          rw [ended]
          intro same
          exact longer (List.append_right_eq_self.mp same)
        rw [if_neg open', ended]
        rfl
      · obtain ⟨rest, comma, tail⟩ := Option.bind_eq_some_iff.mp later
        obtain ⟨others, inner, _⟩ := Option.map_eq_some_iff.mp tail
        have open' : item.2 ++ more ≠ arrayClose := by
          rw [eq_append_of_expect comma]
          intro same
          exact absurd (List.cons.inj same).1 (by decide)
        rw [if_neg open', expect_extend comma, Option.bind_some, ih inner]
        rfl

/-- No proper prefix of a written list is read. -/
theorem read_prefix (key : Text) (values : List Text) {text more : Text} (longer : more ≠ [])
    (written : text ++ more = write key values) : read key text = none := by
  cases text with
  | nil => rfl
  | cons c text =>
    rw [write] at written
    split_ifs at written with empty
    · obtain ⟨rfl, rest⟩ := List.cons.inj written
      cases text with
      | nil => rfl
      | cons d text =>
        have nothing := (List.append_eq_nil_iff.mp (List.cons.inj rest).2).2
        exact absurd nothing longer
    · obtain ⟨rfl, rest⟩ := List.cons.inj written
      have split : writeItems key values = text ++ more := rest.symm
      have items := readItems_writeItems key values empty _ (length_le_writeItems key values)
      rw [split] at items
      have opened : '[' :: text ≠ ['[', ']'] := by
        intro same
        rw [(List.cons.inj same).2, List.singleton_append, readItems_bracket] at items
        contradiction
      rw [read, if_neg opened]
      show readItems key _ text = none
      cases inner : readItems key ('[' :: text).length text with
      | none => rfl
      | some others =>
        rw [readItems_extend key longer _ inner] at items
        contradiction

end Rcurl.PrettyJson
