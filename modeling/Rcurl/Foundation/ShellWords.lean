import Mathlib.Algebra.Ring.Nat
import Mathlib.Tactic.Common

/-!
# POSIX word splitting

The eight-state reader of `shell_words::split`, over lists of characters. A text is read left
to right; each character either joins the word in progress, ends it, or is spent as quoting.
Two kinds of law are proved. Writers: a plain word, and any value between single quotes with
its own quotes escaped, is read back as one word whatever follows. Readers: no word list holds
more than the text it was read from, for every weighting of characters that counts the
separators, so a text with nothing to spare can only be read as it was written.
-/

namespace Rcurl.ShellWords

/-- A text, or one word of it. -/
abbrev Text := List Char

/-- What holds of every character of a text is decided along the text, not over the alphabet. -/
instance (priority := 2000) decidableEvery (text : Text) (Holds : Char → Prop)
    [DecidablePred Holds] : Decidable (∀ c ∈ text, Holds c) := List.decidableBAll Holds text

/-- Where the reader stands. -/
inductive State where
  /-- Between words. -/
  | delimiter
  /-- After a backslash, before any character of the word. -/
  | backslash
  /-- Inside an unquoted stretch of a word. -/
  | unquoted
  /-- After a backslash inside an unquoted stretch. -/
  | unquotedBackslash
  /-- Between single quotes. -/
  | singleQuoted
  /-- Between double quotes. -/
  | doubleQuoted
  /-- After a backslash between double quotes. -/
  | doubleQuotedBackslash
  /-- From a `#` at the start of a word to the end of the line. -/
  | comment
  deriving DecidableEq, Repr

/-- The characters that separate words. -/
def isSeparator (c : Char) : Bool := c == ' ' || c == '\t' || c == '\n'

/-- The characters that start quoting. -/
def isQuoting (c : Char) : Bool := c == '\'' || c == '"' || c == '\\'

/-- The characters a backslash between double quotes escapes. -/
def isEscapable (c : Char) : Bool := c == '$' || c == Char.ofNat 96 || c == '"' || c == '\\'

/-- What reading one character does: the next state, the characters that join the word in
progress, and whether that word ends here. -/
structure Move where
  /-- The state after the character. -/
  next : State
  /-- Characters appended to the word. -/
  emit : Text
  /-- The word is complete. -/
  ends : Bool

/-- Reading one character. -/
def step (state : State) (c : Char) : Move :=
  match state with
  | .delimiter =>
    if c = '\'' then ⟨.singleQuoted, [], false⟩
    else if c = '"' then ⟨.doubleQuoted, [], false⟩
    else if c = '\\' then ⟨.backslash, [], false⟩
    else if isSeparator c then ⟨.delimiter, [], false⟩
    else if c = '#' then ⟨.comment, [], false⟩
    else ⟨.unquoted, [c], false⟩
  | .backslash =>
    if c = '\n' then ⟨.delimiter, [], false⟩ else ⟨.unquoted, [c], false⟩
  | .unquoted =>
    if c = '\'' then ⟨.singleQuoted, [], false⟩
    else if c = '"' then ⟨.doubleQuoted, [], false⟩
    else if c = '\\' then ⟨.unquotedBackslash, [], false⟩
    else if isSeparator c then ⟨.delimiter, [], true⟩
    else ⟨.unquoted, [c], false⟩
  | .unquotedBackslash =>
    if c = '\n' then ⟨.unquoted, [], false⟩ else ⟨.unquoted, [c], false⟩
  | .singleQuoted =>
    if c = '\'' then ⟨.unquoted, [], false⟩ else ⟨.singleQuoted, [c], false⟩
  | .doubleQuoted =>
    if c = '"' then ⟨.unquoted, [], false⟩
    else if c = '\\' then ⟨.doubleQuotedBackslash, [], false⟩
    else ⟨.doubleQuoted, [c], false⟩
  | .doubleQuotedBackslash =>
    if c = '\n' then ⟨.doubleQuoted, [], false⟩
    else if isEscapable c then ⟨.doubleQuoted, [c], false⟩
    else ⟨.doubleQuoted, ['\\', c], false⟩
  | .comment =>
    if c = '\n' then ⟨.delimiter, [], false⟩ else ⟨.comment, [], false⟩

/-- The end of the text: an open quote is an error, a dangling backslash stands for itself. -/
def finish (state : State) (word : Text) : Option (List Text) :=
  match state with
  | .delimiter | .comment => some []
  | .backslash | .unquotedBackslash => some [word ++ ['\\']]
  | .unquoted => some [word]
  | .singleQuoted | .doubleQuoted | .doubleQuotedBackslash => none

/-- Read the rest of a text from a state, with the word in progress. -/
def scan (state : State) (word : Text) : Text → Option (List Text)
  | [] => finish state word
  | c :: rest =>
    if (step state c).ends then (scan (step state c).next [] rest).map (word :: ·)
    else scan (step state c).next (word ++ (step state c).emit) rest

/-- `shell_words::split`. -/
def split (text : Text) : Option (List Text) := scan .delimiter [] text

/-! ## What is written plainly or between quotes is read back -/

/-- A word that reads as itself wherever it starts: not empty, no separator or quoting
character, and no leading comment mark. -/
def Plain (word : Text) : Prop :=
  word ≠ [] ∧ word.head? ≠ some '#' ∧ ∀ c ∈ word, isSeparator c = false ∧ isQuoting c = false

instance (word : Text) : Decidable (Plain word) :=
  inferInstanceAs (Decidable (_ ∧ _ ∧ ∀ c ∈ word, _))

/-- A text that the splitter reads as the one word it is: plain, or plain up to a last
dangling backslash. -/
def SelfWord (text : Text) : Prop :=
  Plain text ∨ ∃ body, text = body ++ ['\\'] ∧ (body = [] ∨ Plain body)

/-- `value.replace('\'', "'\\''")`: close the quotes, write one escaped quote, reopen. -/
def escape (value : Text) : Text :=
  value.flatMap fun c => if c = '\'' then ['\'', '\\', '\'', '\''] else [c]

/-- A value between single quotes. -/
def quote (value : Text) : Text := '\'' :: (escape value ++ ['\''])

/-- A text written at the start of a word is read as that word, whatever follows. -/
def Writes (text word : Text) : Prop :=
  ∀ rest, scan .delimiter [] (text ++ rest) = scan .unquoted word rest

/-- An unquoted character that is neither a separator nor quoting joins the word. -/
theorem step_unquoted_plain (c : Char) (separator : isSeparator c = false)
    (quoting : isQuoting c = false) : step .unquoted c = ⟨.unquoted, [c], false⟩ := by
  simp only [isQuoting, Bool.or_eq_false_iff, beq_eq_false_iff_ne] at quoting
  simp [step, quoting, separator]

/-- The first character of a plain word opens the word. -/
theorem step_delimiter_plain (c : Char) (separator : isSeparator c = false)
    (quoting : isQuoting c = false) (mark : c ≠ '#') :
    step .delimiter c = ⟨.unquoted, [c], false⟩ := by
  simp only [isQuoting, Bool.or_eq_false_iff, beq_eq_false_iff_ne] at quoting
  simp [step, quoting, separator, mark]

/-- Plain characters join an unquoted word as they are. -/
theorem scan_unquoted_plain (body rest word : Text)
    (plain : ∀ c ∈ body, isSeparator c = false ∧ isQuoting c = false) :
    scan .unquoted word (body ++ rest) = scan .unquoted (word ++ body) rest := by
  induction body generalizing word with
  | nil => simp
  | cons c body ih =>
    have head := plain c List.mem_cons_self
    have tail := fun d member => plain d (List.mem_cons_of_mem c member)
    simp only [List.cons_append, scan, step_unquoted_plain c head.1 head.2, Bool.false_eq_true,
      if_false]
    rw [ih (word ++ [c]) tail]
    simp

/-- A plain word is read as itself. -/
theorem plain_writes {word : Text} (plain : Plain word) : Writes word word := by
  intro rest
  obtain ⟨inhabited, mark, body⟩ := plain
  cases word with
  | nil => exact absurd rfl inhabited
  | cons c tail =>
    have head := body c List.mem_cons_self
    have fresh : c ≠ '#' := fun same => mark (by rw [same]; rfl)
    simp only [List.cons_append, scan, step_delimiter_plain c head.1 head.2 fresh,
      Bool.false_eq_true, if_false]
    exact scan_unquoted_plain tail rest [c] fun d member => body d (List.mem_cons_of_mem c member)

/-- Between single quotes every character but the quote joins the word. -/
theorem scan_single_other (c : Char) (word rest : Text) (other : c ≠ '\'') :
    scan .singleQuoted word (c :: rest) = scan .singleQuoted (word ++ [c]) rest := by
  simp [scan, step, other]

/-- An escaped value followed by the closing quote appends exactly the value. -/
theorem scan_escape (value word rest : Text) :
    scan .singleQuoted word (escape value ++ '\'' :: rest) =
      scan .unquoted (word ++ value) rest := by
  induction value generalizing word with
  | nil => simp [escape, scan, step]
  | cons c value ih =>
    by_cases same : c = '\''
    · subst same
      have reopened := ih (word ++ ['\''])
      simp only [escape] at reopened
      simp [escape, scan, step, reopened]
    · have joined := ih (word ++ [c])
      simp only [escape] at joined
      simp [escape, same, scan_single_other, joined]

/-- A quoted value is read back as the value, whatever characters it holds. -/
theorem quote_writes (value : Text) : Writes (quote value) value := by
  intro rest
  have closed := scan_escape value [] rest
  simpa [quote, scan, step] using closed

/-- After a finished word and one space, a written text is the next word. -/
theorem scan_space_writes {text word : Text} (writes : Writes text word) (current rest : Text) :
    scan .unquoted current (' ' :: (text ++ rest)) =
      (scan .unquoted word rest).map (current :: ·) := by
  rw [← writes rest]
  rfl

/-- A text that writes words, each after one space, plain or between quotes. -/
inductive Spells : Text → List Text → Prop
  /-- Nothing is written. -/
  | nil : Spells [] []
  /-- A plain word, then the rest. -/
  | plain {word text : Text} {words : List Text} (self : Plain word) (later : Spells text words) :
    Spells (' ' :: (word ++ text)) (word :: words)
  /-- A quoted value, then the rest. -/
  | quoted (value : Text) {text : Text} {words : List Text} (later : Spells text words) :
    Spells (' ' :: (quote value ++ text)) (value :: words)

namespace Spells

/-- Spelled words may be written one list after another. -/
theorem append {left right : Text} {first second : List Text} (head : Spells left first)
    (tail : Spells right second) : Spells (left ++ right) (first ++ second) := by
  induction head with
  | nil => exact tail
  | plain self _ ih =>
    rw [List.cons_append, List.cons_append, List.append_assoc]
    exact .plain self ih
  | quoted value _ ih =>
    rw [List.cons_append, List.cons_append, List.append_assoc]
    exact .quoted value ih

/-- Spelled words, and a space after them, start with a space. -/
theorem spaced {text : Text} {words : List Text} (spells : Spells text words) (after : Text) :
    ∃ rest, text ++ ' ' :: after = ' ' :: rest := by
  cases spells with
  | nil => exact ⟨after, rfl⟩
  | plain self later => exact ⟨_, rfl⟩
  | quoted value later => exact ⟨_, rfl⟩

/-- Words are spelled after a space, no words by no text. -/
theorem opens {text : Text} {words : List Text} (spells : Spells text words) :
    words = [] ∧ text = [] ∨ words ≠ [] ∧ ∃ rest, text = ' ' :: rest := by
  cases spells with
  | nil => exact .inl ⟨rfl, rfl⟩
  | plain self later => exact .inr ⟨List.cons_ne_nil _ _, _, rfl⟩
  | quoted value later => exact .inr ⟨List.cons_ne_nil _ _, _, rfl⟩

/-- Spelled words are read back in order, and the last one ends at the next space. -/
theorem scan_space {text : Text} {words : List Text} (spells : Spells text words) :
    ∀ first rest : Text, scan .unquoted first (text ++ ' ' :: rest) =
      (scan .delimiter [] rest).map (first :: words ++ ·) := by
  induction spells with
  | nil => exact fun first rest => rfl
  | plain self _ ih =>
    intro first rest
    rw [List.cons_append, List.append_assoc, scan_space_writes (plain_writes self), ih]
    simp [Option.map_map, Function.comp_def]
  | quoted value _ ih =>
    intro first rest
    rw [List.cons_append, List.append_assoc, scan_space_writes (quote_writes value), ih]
    simp [Option.map_map, Function.comp_def]

/-- Spelled words at the end of a text are read back in order. -/
theorem scan_end {text : Text} {words : List Text} (spells : Spells text words) :
    ∀ first : Text, scan .unquoted first text = some (first :: words) := by
  induction spells with
  | nil => exact fun first => rfl
  | plain self _ ih =>
    intro first
    rw [scan_space_writes (plain_writes self), ih]
    rfl
  | quoted value _ ih =>
    intro first
    rw [scan_space_writes (quote_writes value), ih]
    rfl

end Spells

/-! ## No reading holds more than its text

Every character of a word was read from the text, and every word but the last was paid for by
a separator. The weight of a word list counts both, for any weighting of characters. -/

/-- The summed weight of the characters of a text. -/
def cost (κ : Char → Nat) (text : Text) : Nat := (text.map κ).sum

/-- The summed weight of words, each with one unit for its boundary. -/
def weight (κ : Char → Nat) (words : List Text) : Nat := (words.map fun word => 1 + cost κ word).sum

/-- A backslash that may still join the word. -/
def pending (κ : Char → Nat) : State → Nat
  | .backslash | .unquotedBackslash | .doubleQuotedBackslash => κ '\\'
  | .delimiter | .unquoted | .singleQuoted | .doubleQuoted | .comment => 0

@[simp] theorem cost_nil (κ : Char → Nat) : cost κ [] = 0 := rfl

@[simp] theorem cost_cons (κ : Char → Nat) (c : Char) (text : Text) :
    cost κ (c :: text) = κ c + cost κ text := by
  simp [cost]

@[simp] theorem cost_append (κ : Char → Nat) (left right : Text) :
    cost κ (left ++ right) = cost κ left + cost κ right := by
  simp [cost]

@[simp] theorem weight_nil (κ : Char → Nat) : weight κ [] = 0 := rfl

@[simp] theorem weight_cons (κ : Char → Nat) (word : Text) (words : List Text) :
    weight κ (word :: words) = 1 + cost κ word + weight κ words := by
  simp [weight]

@[simp] theorem weight_append (κ : Char → Nat) (left right : List Text) :
    weight κ (left ++ right) = weight κ left + weight κ right := by
  simp [weight]

/-- A text weighs its length when every character weighs one. -/
theorem cost_one (text : Text) : cost (fun _ => 1) text = text.length := by
  induction text with
  | nil => rfl
  | cons c text ih => rw [cost_cons, ih, List.length_cons, Nat.add_comm]

/-- Escaping costs nothing when quoting characters weigh nothing. -/
theorem cost_quote (κ : Char → Nat) (single : κ '\'' = 0) (back : κ '\\' = 0) (value : Text) :
    cost κ (quote value) = cost κ value := by
  have escaped : cost κ (escape value) = cost κ value := by
    induction value with
    | nil => rfl
    | cons c value ih =>
      rw [escape, List.flatMap_cons, ← escape, cost_append, ih, cost_cons]
      by_cases same : c = '\''
      · subst same
        simp [single, back]
      · simp [same]
  simp [quote, escaped, single]

/-- Spelled words weigh exactly their text when a space weighs one and quoting nothing. -/
theorem Spells.cost_eq {κ : Char → Nat} (space : κ ' ' = 1) (single : κ '\'' = 0)
    (back : κ '\\' = 0) {text : Text} {words : List Text} (spells : Spells text words) :
    cost κ text = weight κ words := by
  induction spells with
  | nil => rfl
  | plain self _ ih =>
    rw [cost_cons, cost_append, weight_cons, ih, space]
    omega
  | quoted value _ ih =>
    rw [cost_cons, cost_append, weight_cons, cost_quote κ single back, ih, space]
    omega

/-- Inside a word a character joins it, or is kept back, at no more than its own weight. -/
theorem step_cost (κ : Char → Nat) (state : State) (c : Char)
    (stays : (step state c).ends = false) :
    cost κ (step state c).emit + pending κ (step state c).next ≤ pending κ state + κ c := by
  cases state <;> grind [step, pending, cost_nil, cost_cons]

/-- A word ends only at a separator of an unquoted stretch. -/
theorem step_ends {state : State} {c : Char} (ends : (step state c).ends = true) :
    state = .unquoted ∧ isSeparator c = true ∧ step state c = ⟨.delimiter, [], true⟩ := by
  cases state <;> grind [step]

section Weight

variable {κ : Char → Nat} (separators : ∀ c, isSeparator c = true → 1 ≤ κ c)
include separators

/-- The words of a reading weigh no more than the word in progress and the text ahead. -/
theorem scan_weight (text : Text) : ∀ {state : State} {word : Text} {words : List Text},
    scan state word text = some words →
      weight κ words ≤ cost κ word + pending κ state + cost κ text + 1 := by
  induction text with
  | nil =>
    intro state word words read
    cases state <;> simp only [scan, finish, Option.some.injEq, reduceCtorEq] at read <;>
      subst read <;> simp [pending] <;> omega
  | cons c text ih =>
    intro state word words read
    simp only [scan] at read
    cases ends : (step state c).ends with
    | true =>
      obtain ⟨unquoted, separator, move⟩ := step_ends ends
      simp only [move, if_true, Option.map_eq_some_iff] at read
      obtain ⟨later, tail, rfl⟩ := read
      have bound := ih tail
      have paid := separators c separator
      simp only [weight_cons, cost_nil, cost_cons, pending] at bound ⊢
      omega
    | false =>
      rw [if_neg (by simp [ends])] at read
      have bound := ih read
      have spent := step_cost κ state c ends
      simp only [cost_append, cost_cons] at bound ⊢
      omega

/-- When the next character neither joins a word nor ends one, its weight is lost. -/
theorem scan_weight_lost {state : State} {word text : Text} {words : List Text} {c : Char}
    (stays : (step state c).ends = false)
    (lost : cost κ (step state c).emit + pending κ (step state c).next + 1 ≤ pending κ state + κ c)
    (read : scan state word (c :: text) = some words) :
    weight κ words ≤ cost κ word + pending κ state + cost κ (c :: text) := by
  simp only [scan, stays, Bool.false_eq_true, if_false] at read
  have bound := scan_weight separators text read
  simp only [cost_append, cost_cons] at bound ⊢
  omega

end Weight

/-! ## A word that reads as itself before a space is plain

While quoting is open the reader runs ahead of the word it builds. The characters it has spent
are all quoting characters, so a text that wants to read as itself would have to keep spelling
quoting characters, and a space ends that. -/

/-- States inside a word. -/
def State.inWord : State → Bool
  | .unquoted | .unquotedBackslash | .singleQuoted | .doubleQuoted | .doubleQuotedBackslash => true
  | .delimiter | .backslash | .comment => false

/-- An unquoted stretch is inside a word. -/
theorem unquoted_inWord : State.unquoted.inWord = true := rfl

/-- How many characters the reader has spent, at least, in a state it reached by quoting. -/
def State.lag : State → Nat
  | .doubleQuotedBackslash => 2
  | .delimiter | .backslash | .unquoted | .unquotedBackslash | .singleQuoted | .doubleQuoted
  | .comment => 1

/-- The characters that can be spent inside a word. -/
def isSpent (c : Char) : Bool := isQuoting c || c == '\n'

/-- Inside a word, a character that does not end it keeps the reader inside, never lets the
word catch up, and is written out unless it is one of the spent ones. -/
theorem step_inWord {state : State} (inside : state.inWord = true) (c : Char)
    (stays : (step state c).ends = false) :
    (step state c).next.inWord = true ∧
      (step state c).next.lag + (step state c).emit.length ≤ state.lag + 1 ∧
      (step state c).emit.length ≤ state.lag ∧
      (c ∈ (step state c).emit ∨ isSpent c = true) := by
  cases state <;> grind [step, State.inWord, State.lag, isSpent, isQuoting]

/-- A word in progress opens the first word read. -/
theorem scan_first_extends (text : Text) : ∀ {state : State} {word : Text} {words : List Text},
    state.inWord = true → scan state word text = some words →
      ∃ first others, words = first :: others ∧ word <+: first := by
  induction text with
  | nil =>
    intro state word words inside read
    cases state <;> simp only [State.inWord, Bool.false_eq_true] at inside <;>
      simp only [scan, finish, Option.some.injEq, reduceCtorEq] at read <;> subst read
    · exact ⟨_, _, rfl, List.prefix_rfl⟩
    · exact ⟨_, _, rfl, List.prefix_append _ _⟩
  | cons c text ih =>
    intro state word words inside read
    simp only [scan] at read
    cases ends : (step state c).ends with
    | true =>
      simp only [ends, if_true, Option.map_eq_some_iff] at read
      obtain ⟨later, _, rfl⟩ := read
      exact ⟨_, _, rfl, List.prefix_rfl⟩
    | false =>
      rw [if_neg (by simp [ends])] at read
      obtain ⟨first, others, same, extended⟩ := ih (step_inWord inside c ends).1 read
      exact ⟨first, others, same, (List.prefix_append _ _).trans extended⟩

/-- A reader that is behind by spent characters never reads the text it is behind on. -/
theorem scan_behind (body : Text) : ∀ (debt : Text) {state : State} {word rest first : Text}
    {others : List Text}, state.inWord = true → (∀ c ∈ debt, isSpent c = true) →
      state.lag ≤ debt.length → scan state word (body ++ ' ' :: rest) = some (first :: others) →
        first ≠ word ++ debt ++ body := by
  induction body with
  | nil =>
    intro debt state word rest first others inside spent behind read same
    simp only [List.nil_append, scan] at read
    have positive : 1 ≤ state.lag := by cases state <;> simp [State.lag]
    cases ends : (step state ' ').ends with
    | true =>
      simp only [ends, if_true, Option.map_eq_some_iff, List.cons.injEq] at read
      obtain ⟨_, _, complete, _⟩ := read
      have short := congrArg List.length (complete.trans same)
      simp only [List.length_append, List.length_nil] at short
      omega
    | false =>
      rw [if_neg (by simp [ends])] at read
      obtain ⟨inside', _, _, written⟩ := step_inWord inside ' ' ends
      obtain ⟨_, _, heads, extended⟩ := scan_first_extends rest inside' read
      obtain rfl := (List.cons.inj heads).1
      rw [same, List.append_nil, List.prefix_append_right_inj] at extended
      rcases written with emitted | marked
      · exact absurd (spent ' ' (extended.subset emitted)) (by decide)
      · exact absurd marked (by decide)
  | cons c body ih =>
    intro debt state word rest first others inside spent behind read same
    simp only [List.cons_append, scan] at read
    cases ends : (step state c).ends with
    | true =>
      simp only [ends, if_true, Option.map_eq_some_iff, List.cons.injEq] at read
      obtain ⟨_, _, complete, _⟩ := read
      have short := congrArg List.length (complete.trans same)
      simp only [List.length_append, List.length_cons] at short
      omega
    | false =>
      rw [if_neg (by simp [ends])] at read
      obtain ⟨inside', ahead, written, marked⟩ := step_inWord inside c ends
      obtain ⟨_, _, heads, extended⟩ := scan_first_extends _ inside' read
      obtain rfl := (List.cons.inj heads).1
      rw [same, List.append_assoc, List.prefix_append_right_inj] at extended
      obtain ⟨owed, paid⟩ : (step state c).emit <+: debt :=
        List.prefix_of_prefix_length_le extended (List.prefix_append _ _) (by omega)
      have marks : ∀ d ∈ owed ++ [c], isSpent d = true := by
        intro d member
        rcases List.mem_append.mp member with earlier | last
        · exact spent d (by rw [← paid]; exact List.mem_append_right _ earlier)
        · obtain rfl := List.mem_singleton.mp last
          exact marked.elim
            (fun emitted => spent d (by rw [← paid]; exact List.mem_append_left _ emitted)) id
      have remaining : (step state c).next.lag ≤ (owed ++ [c]).length := by
        have total := congrArg List.length paid
        simp only [List.length_append, List.length_singleton] at total ⊢
        omega
      refine ih (owed ++ [c]) inside' marks remaining read ?_
      rw [same, ← paid]
      simp

/-- A separator ends an unquoted word. -/
theorem step_unquoted_separator {c : Char} (separator : isSeparator c = true) :
    step .unquoted c = ⟨.delimiter, [], true⟩ := by
  simp only [isSeparator, Bool.or_eq_true, beq_iff_eq] at separator
  rcases separator with (rfl | rfl) | rfl <;> rfl

/-- Reading on from an unquoted word, a text that reads as itself before a space is plain. -/
theorem unquoted_plain_of_first (text : Text) : ∀ (word : Text) {rest : Text} {others : List Text},
    scan .unquoted word (text ++ ' ' :: rest) = some ((word ++ text) :: others) →
      ∀ c ∈ text, isSeparator c = false ∧ isQuoting c = false := by
  induction text with
  | nil => simp
  | cons c text ih =>
    intro word rest others read
    cases separator : isSeparator c with
    | true =>
      simp [scan, step_unquoted_separator separator] at read
    | false =>
      cases quoting : isQuoting c with
      | true =>
        obtain ⟨next, move, inside, behind⟩ : ∃ next : State, step .unquoted c = ⟨next, [], false⟩ ∧
            next.inWord = true ∧ next.lag ≤ 1 := by
          simp only [isQuoting, Bool.or_eq_true, beq_iff_eq] at quoting
          rcases quoting with (rfl | rfl) | rfl <;> exact ⟨_, rfl, rfl, Nat.le_refl _⟩
        simp only [List.cons_append, scan, move, Bool.false_eq_true, if_false, List.append_nil]
          at read
        have never := scan_behind text [c] inside (by simp [isSpent, quoting]) behind read
        exact absurd (by simp) never
      | false =>
        simp only [List.cons_append, scan, step_unquoted_plain c separator quoting,
          Bool.false_eq_true, if_false] at read
        have tail := ih (word ++ [c]) (by simpa using read)
        intro d member
        rcases List.mem_cons.mp member with rfl | later
        · exact ⟨separator, quoting⟩
        · exact tail d later

/-- A separator between words is skipped. -/
theorem step_delimiter_separator {c : Char} (separator : isSeparator c = true) :
    step .delimiter c = ⟨.delimiter, [], false⟩ := by
  simp only [isSeparator, Bool.or_eq_true, beq_iff_eq] at separator
  rcases separator with (rfl | rfl) | rfl <;> rfl

/-- A text that opens with a quoting character is never read as itself before a space. Only a
line continuation brings the reader back between words, and it loses its newline. -/
theorem opening_behind {κ : Char → Nat} (separators : ∀ c, isSeparator c = true → 1 ≤ κ c)
    {c : Char} (quoting : isQuoting c = true) {text rest : Text} {others : List Text}
    (read : scan .delimiter [] (c :: text ++ ' ' :: rest) = some ((c :: text) :: others))
    (full : cost κ (c :: text ++ ' ' :: rest) + 1 ≤ weight κ ((c :: text) :: others)) : False := by
  simp only [isQuoting, Bool.or_eq_true, beq_iff_eq] at quoting
  rcases quoting with (rfl | rfl) | rfl
  · have opened : scan .singleQuoted [] (text ++ ' ' :: rest) = some (('\'' :: text) :: others) := read
    exact scan_behind text ['\''] rfl (by simp [isSpent, isQuoting]) (Nat.le_refl _)
      opened rfl
  · have opened : scan .doubleQuoted [] (text ++ ' ' :: rest) = some (('"' :: text) :: others) := read
    exact scan_behind text ['"'] rfl (by simp [isSpent, isQuoting]) (Nat.le_refl _)
      opened rfl
  · have escaped : scan .backslash [] (text ++ ' ' :: rest) = some (('\\' :: text) :: others) := read
    cases text with
    | nil =>
      obtain ⟨_, _, heads, extended⟩ := scan_first_extends rest unquoted_inWord escaped
      obtain rfl := (List.cons.inj heads).1
      simp [step] at extended
    | cons d text =>
      by_cases newline : d = '\n'
      · subst newline
        have gap : 1 ≤ κ '\\' + κ '\n' := Nat.le_add_left_of_le (separators '\n' rfl)
        rw [List.cons_append] at escaped
        have bound := scan_weight_lost separators rfl (by simpa [step, pending] using gap) escaped
        simp only [List.cons_append, cost_cons, cost_nil, pending] at bound full
        omega
      · have move : step .backslash d = ⟨.unquoted, [d], false⟩ := by simp [step, newline]
        simp only [List.cons_append, scan, move, Bool.false_eq_true, if_false, List.nil_append]
          at escaped
        obtain ⟨_, _, heads, extended⟩ := scan_first_extends _ unquoted_inWord escaped
        obtain rfl := (List.cons.inj heads).1
        obtain rfl : d = '\\' := by simpa using extended
        exact scan_behind text ['\\'] rfl (by simp [isSpent, isQuoting]) (Nat.le_refl _)
          escaped rfl

/-- A text read as itself before a space, with nothing lost, is plain. The weighting has to
count separators and comment marks, which a reader between words skips. -/
theorem plain_of_first {κ : Char → Nat} (separators : ∀ c, isSeparator c = true → 1 ≤ κ c)
    (mark : 1 ≤ κ '#') {text rest : Text} {others : List Text}
    (read : scan .delimiter [] (text ++ ' ' :: rest) = some (text :: others))
    (full : cost κ (text ++ ' ' :: rest) + 1 ≤ weight κ (text :: others)) : Plain text := by
  have skipped : ∀ (c : Char) (later : Text), text ++ ' ' :: rest = c :: later →
      (step .delimiter c).ends = false →
      cost κ (step .delimiter c).emit + pending κ (step .delimiter c).next + 1 ≤ κ c → False := by
    intro c later split stays lost
    rw [split] at read full
    have bound := scan_weight_lost separators stays (by simpa [pending] using lost) read
    simp only [cost_nil, pending] at bound
    omega
  cases text with
  | nil =>
    have gap := separators ' ' rfl
    exact (skipped ' ' rest rfl rfl (by simpa [step, isSeparator, pending] using gap)).elim
  | cons c text =>
    cases separator : isSeparator c with
    | true =>
      have gap := separators c separator
      have move := step_delimiter_separator separator
      exact (skipped c _ rfl (by rw [move]) (by simpa [move, pending] using gap)).elim
    | false =>
      by_cases comment : c = '#'
      · subst comment
        exact (skipped '#' _ rfl rfl (by simpa [step, isSeparator, pending] using mark)).elim
      · cases quoting : isQuoting c with
        | false =>
          simp only [List.cons_append, scan, step_delimiter_plain c separator quoting comment,
            Bool.false_eq_true, if_false] at read
          have tail := unquoted_plain_of_first text [c] (by simpa using read)
          refine ⟨by simp, by simpa using comment, fun d member => ?_⟩
          rcases List.mem_cons.mp member with rfl | later
          · exact ⟨separator, quoting⟩
          · exact tail d later
        | true =>
          have never := opening_behind separators quoting read full
          exact never.elim

/-! ## Texts that split to themselves -/

/-- Fewer words weigh no more. -/
theorem weight_sublist {κ : Char → Nat} {part words : List Text} (sub : part.Sublist words) :
    weight κ part ≤ weight κ words := by
  induction sub with
  | slnil => exact Nat.le_refl _
  | cons word _ ih =>
    rw [weight_cons]
    exact Nat.le_add_left_of_le ih
  | cons_cons word _ ih =>
    rw [weight_cons, weight_cons]
    exact Nat.add_le_add_left ih _

/-- Some of the words that weigh as much as all of them are all of them. -/
theorem eq_of_sublist_weight {κ : Char → Nat} {part words : List Text} (sub : part.Sublist words)
    (bound : weight κ words ≤ weight κ part) : words = part := by
  induction sub with
  | slnil => rfl
  | cons word smaller _ =>
    have fewer := weight_sublist (κ := κ) smaller
    rw [weight_cons] at bound
    omega
  | cons_cons word _ ih =>
    rw [weight_cons, weight_cons] at bound
    rw [ih (by omega)]

/-- The words of a splitting weigh no more than its text, counting every character one. -/
theorem split_weight {text : Text} {words : List Text} (read : split text = some words) :
    weight (fun _ => 1) words ≤ text.length + 1 := by
  have bound := scan_weight (κ := fun _ => 1) (fun _ _ => Nat.le_refl 1) text read
  simpa [cost_one, pending] using bound

/-- A splitting that keeps the whole text as one of its words is that word alone. -/
theorem split_eq_of_mem {text : Text} {words : List Text} (read : split text = some words)
    (member : text ∈ words) : words = [text] := by
  have bound := split_weight read
  apply eq_of_sublist_weight (κ := fun _ => 1) (List.singleton_sublist.mpr member)
  rw [weight_cons, weight_nil, cost_one]
  omega

/-- A reading of one word as long as its text loses no character. -/
theorem not_lost_of_kept {state : State} {word kept text : Text} {c : Char}
    (stays : (step state c).ends = false)
    (lost : (step state c).emit.length + pending (fun _ => 1) (step state c).next ≤
      pending (fun _ => 1) state)
    (whole : kept.length = word.length + pending (fun _ => 1) state + (text.length + 1))
    (read : scan state word (c :: text) = some [kept]) : False := by
  have short := scan_weight_lost (κ := fun _ => 1) (fun _ _ => Nat.le_refl 1) stays
    (by rw [cost_one]; omega) read
  simp only [weight_cons, weight_nil, cost_one, List.length_cons] at short
  omega

/-- A character spent without a trace only changes the state. -/
theorem scan_opened {state next : State} {word rest : Text} {c : Char}
    (move : step state c = ⟨next, [], false⟩) :
    scan state word (c :: rest) = scan next word rest := by
  simp [scan, move]

/-- A text kept whole can open with no quoting character but a single dangling backslash. -/
theorem opening_self {c : Char} (quoting : isQuoting c = true) {state : State} (word : Text)
    {text : Text} (opens : state = .unquoted ∨ state = .delimiter)
    (read : scan state word (c :: text) = some [word ++ c :: text]) : c = '\\' ∧ text = [] := by
  simp only [isQuoting, Bool.or_eq_true, beq_iff_eq] at quoting
  rcases quoting with (rfl | rfl) | rfl
  · rcases opens with rfl | rfl <;>
      exact (not_lost_of_kept rfl (by simp [step, pending]) (by simp [pending]) read).elim
  · rcases opens with rfl | rfl <;>
      exact (not_lost_of_kept rfl (by simp [step, pending]) (by simp [pending]) read).elim
  · cases text with
    | nil => exact ⟨rfl, rfl⟩
    | cons d text =>
      have escaped : ∃ state' : State, (state' = .unquotedBackslash ∨ state' = .backslash) ∧
          scan state' word (d :: text) = some [word ++ '\\' :: d :: text] := by
        rcases opens with rfl | rfl
        · exact ⟨_, .inl rfl, (scan_opened rfl).symm.trans read⟩
        · exact ⟨_, .inr rfl, (scan_opened rfl).symm.trans read⟩
      obtain ⟨state', rfl | rfl, later⟩ := escaped <;>
        exact (not_lost_of_kept (by unfold step; split_ifs <;> rfl)
          (by unfold step; split_ifs <;> simp [pending])
          (by simp [pending]; omega) later).elim

/-- Continuing an unquoted word, only plain characters and one last backslash are kept. -/
theorem unquoted_self (text : Text) : ∀ (word : Text),
    scan .unquoted word text = some [word ++ text] →
      ∃ body, (text = body ∨ text = body ++ ['\\']) ∧
        ∀ c ∈ body, isSeparator c = false ∧ isQuoting c = false := by
  induction text with
  | nil => exact fun _ _ => ⟨[], .inl rfl, by simp⟩
  | cons c text ih =>
    intro word read
    cases separator : isSeparator c with
    | true => simp [scan, step_unquoted_separator separator] at read
    | false =>
      cases quoting : isQuoting c with
      | false =>
        simp only [scan, step_unquoted_plain c separator quoting, Bool.false_eq_true, if_false]
          at read
        obtain ⟨body, shape, plain⟩ := ih (word ++ [c]) (by simpa using read)
        refine ⟨c :: body, by simpa using shape, fun d member => ?_⟩
        rcases List.mem_cons.mp member with rfl | later
        · exact ⟨separator, quoting⟩
        · exact plain d later
      | true =>
        obtain ⟨rfl, rfl⟩ := opening_self quoting word (.inl rfl) read
        exact ⟨[], .inr rfl, by simp⟩

/-- A text splits to itself exactly when it is plain, up to a last dangling backslash. -/
theorem split_eq_self_iff (text : Text) : split text = some [text] ↔ SelfWord text := by
  constructor
  · intro read
    cases text with
    | nil => simp [split, scan, finish] at read
    | cons c text =>
      cases separator : isSeparator c with
      | true =>
        have short := scan_weight_lost (κ := fun _ => 1) (fun _ _ => Nat.le_refl 1)
          (by rw [step_delimiter_separator separator])
          (by simp [step_delimiter_separator separator, pending]) read
        simp only [weight_cons, weight_nil, cost_one, cost_nil, pending] at short
        omega
      | false =>
        by_cases mark : c = '#'
        · subst mark
          have short := scan_weight_lost (κ := fun _ => 1) (fun _ _ => Nat.le_refl 1) rfl
            (by simp [step, isSeparator, pending]) read
          simp only [weight_cons, weight_nil, cost_one, cost_nil, pending] at short
          omega
        · cases quoting : isQuoting c with
          | false =>
            simp only [split, scan, step_delimiter_plain c separator quoting mark,
              Bool.false_eq_true, if_false] at read
            obtain ⟨body, shape, plain⟩ := unquoted_self text [c] (by simpa using read)
            have kept : Plain (c :: body) := by
              refine ⟨by simp, by simpa using mark, fun d member => ?_⟩
              rcases List.mem_cons.mp member with rfl | later
              · exact ⟨separator, quoting⟩
              · exact plain d later
            rcases shape with rfl | rfl
            · exact .inl kept
            · exact .inr ⟨c :: body, rfl, .inr kept⟩
          | true =>
            obtain ⟨rfl, rfl⟩ := opening_self quoting [] (.inr rfl) read
            exact .inr ⟨[], rfl, .inl rfl⟩
  · rintro (plain | ⟨body, rfl, rfl | plain⟩)
    · simpa [split, scan, finish] using plain_writes plain []
    · rfl
    · simpa [split, scan, finish, step] using plain_writes plain ['\\']

end Rcurl.ShellWords
