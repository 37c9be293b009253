import Mathlib.Tactic.Common

/-!
# Reading bytes that may not be UTF-8

The text that bytes are read as when whatever is no UTF-8 is replaced: every longest start of a
character that is broken off, and every byte that cannot start one, is one replacement character. The
reader takes a byte at a time. `lossy_pieces_iff` says when bytes may be read in pieces: no piece ends
inside a character that the next byte goes on with. A piece that does costs a character too many,
because a byte that goes on with one character cannot start another.
-/

namespace Rcurl.LossyUtf8

/-- The character that stands for what is no UTF-8. -/
def replacement : Char := Char.ofNat 0xFFFD

/-- A character that is not complete. -/
structure Pending where
  /-- How many bytes are missing behind the next one. -/
  behind : Nat
  /-- The code so far. -/
  code : Nat
  /-- The least next byte. -/
  low : UInt8
  /-- The greatest next byte. -/
  high : UInt8
  /-- The next byte cannot start a character. -/
  inside : 0x80 ≤ low ∧ high ≤ 0xBF

/-- A byte goes on with the character. -/
def Pending.accepts (pending : Pending) (byte : UInt8) : Bool :=
  decide (pending.low ≤ byte) && decide (byte ≤ pending.high)

/-- Any byte inside a character. -/
def Pending.any (behind code : Nat) : Pending :=
  { behind, code, low := 0x80, high := 0xBF, inside := by decide }

/-- What a byte starts, when it starts a character of several bytes. -/
def lead (byte : UInt8) : Option Pending :=
  if 0xC2 ≤ byte ∧ byte ≤ 0xDF then some (.any 0 (byte.toNat - 0xC0))
  else if byte = 0xE0 then
    some { behind := 1, code := 0, low := 0xA0, high := 0xBF, inside := by decide }
  else if byte = 0xED then
    some { behind := 1, code := 0xD, low := 0x80, high := 0x9F, inside := by decide }
  else if 0xE1 ≤ byte ∧ byte ≤ 0xEF then some (.any 1 (byte.toNat - 0xE0))
  else if byte = 0xF0 then
    some { behind := 2, code := 0, low := 0x90, high := 0xBF, inside := by decide }
  else if 0xF1 ≤ byte ∧ byte ≤ 0xF3 then some (.any 2 (byte.toNat - 0xF0))
  else if byte = 0xF4 then
    some { behind := 2, code := 4, low := 0x80, high := 0x8F, inside := by decide }
  else none

/-- What is read at a byte: the text, and the character that is not complete. -/
abbrev Reading := List Char × Option Pending

/-- A byte where a character starts. -/
def start (byte : UInt8) : Reading :=
  if byte < 0x80 then ([Char.ofNat byte.toNat], none)
  else match lead byte with
    | some pending => ([], some pending)
    | none => ([replacement], none)

/-- A byte that goes on with a character. -/
def Pending.extend (pending : Pending) (byte : UInt8) : Reading :=
  let code := pending.code * 64 + (byte.toNat - 0x80)
  match pending.behind with
  | 0 => ([Char.ofNat code], none)
  | behind + 1 => ([], some (.any behind code))

/-- The next byte. -/
def step (pending : Option Pending) (byte : UInt8) : Reading :=
  match pending with
  | none => start byte
  | some pending =>
    if pending.accepts byte then pending.extend byte
    else (replacement :: (start byte).1, (start byte).2)

/-- The end of the bytes. -/
def flush : Option Pending → List Char
  | none => []
  | some _ => [replacement]

/-- The text of bytes, from a character that is not complete. -/
def readFrom (pending : Option Pending) : List UInt8 → List Char
  | [] => flush pending
  | byte :: rest => (step pending byte).1 ++ readFrom (step pending byte).2 rest

/-- The text of bytes: `String::from_utf8_lossy`. -/
def lossy (bytes : List UInt8) : List Char := readFrom none bytes

/-- The character that bytes leave incomplete. -/
def left (pending : Option Pending) (bytes : List UInt8) : Option Pending :=
  bytes.foldl (fun pending byte => (step pending byte).2) pending

/-- The next byte goes on with the character that is not complete. -/
def Continued (pending : Option Pending) (bytes : List UInt8) : Prop :=
  ∃ known byte, pending = some known ∧ bytes.head? = some byte ∧ known.accepts byte = true

/-- No piece ends inside a character that the next byte goes on with. -/
def Whole : List (List UInt8) → Prop
  | [] => True
  | piece :: later => ¬ Continued (left none piece) later.flatten ∧ Whole later

example : lossy [0xE2, 0x82, 0xAC, 0x41, 0xF0, 0x9F, 0x98, 0x41, 0xC0, 0xAF] =
    ['€', 'A', replacement, 'A', replacement, replacement] := by decide

section Reading

variable {pending : Option Pending}

/-- A byte inside a character starts none. -/
theorem lead_inside {byte : UInt8} (high : byte ≤ 0xBF) : lead byte = none := by
  have bound : byte.toNat ≤ 191 := UInt8.le_iff_toNat_le.mp high
  have above : ∀ other : UInt8, 191 < other.toNat → ¬ other ≤ byte := by
    intro other large smaller
    have known := UInt8.le_iff_toNat_le.mp smaller
    omega
  have apart : ∀ other : UInt8, 191 < other.toNat → byte ≠ other :=
    fun other large same => above other large (UInt8.le_of_eq same.symm)
  rw [lead, if_neg fun range => above 0xC2 (by decide) range.1, if_neg (apart 0xE0 (by decide)),
    if_neg (apart 0xED (by decide)), if_neg fun range => above 0xE1 (by decide) range.1,
    if_neg (apart 0xF0 (by decide)), if_neg fun range => above 0xF1 (by decide) range.1,
    if_neg (apart 0xF4 (by decide))]

/-- A byte that goes on with a character does not start one. -/
theorem start_of_accepts {known : Pending} {byte : UInt8} (accepts : known.accepts byte = true) :
    start byte = ([replacement], none) := by
  rw [Pending.accepts, Bool.and_eq_true, decide_eq_true_eq, decide_eq_true_eq] at accepts
  have low : 0x80 ≤ byte := UInt8.le_trans known.inside.1 accepts.1
  have high : byte ≤ 0xBF := UInt8.le_trans accepts.2 known.inside.2
  rw [start, if_neg (UInt8.not_lt.mpr low), lead_inside high]

/-- What a byte gives that goes on: a whole character, or a longer start of one. -/
theorem extend_cases (known : Pending) (byte : UInt8) :
    (∃ c, known.extend byte = ([c], none)) ∨ ∃ next, known.extend byte = ([], some next) := by
  rw [Pending.extend]
  cases known.behind with
  | zero => exact .inl ⟨_, rfl⟩
  | succ behind => exact .inr ⟨_, rfl⟩

/-- An incomplete character that the next byte does not go on with is replaced, and the reading
starts over. -/
theorem readFrom_of_broken {bytes : List UInt8} (broken : ¬ Continued pending bytes) :
    readFrom pending bytes = flush pending ++ readFrom none bytes := by
  cases pending with
  | none => rfl
  | some known =>
    cases bytes with
    | nil => rfl
    | cons byte rest =>
      have refuses : ¬ known.accepts byte = true :=
        fun accepts => broken ⟨known, byte, rfl, rfl, accepts⟩
      rw [readFrom, step, if_neg refuses]
      rfl

/-- Read on its own, a byte that goes on with a character is replaced. -/
theorem length_replaced {known : Pending} {byte : UInt8} {rest : List UInt8}
    (accepts : known.accepts byte = true) :
    (readFrom none (byte :: rest)).length = (readFrom none rest).length + 1 := by
  rw [readFrom, step, start_of_accepts accepts, List.singleton_append, List.length_cons]

/-- An incomplete character costs one more character at most. -/
theorem length_readFrom_le (bytes : List UInt8) : ∀ known : Pending,
    (readFrom (some known) bytes).length ≤ (readFrom none bytes).length + 1 := by
  induction bytes with
  | nil => exact fun known => Nat.le_refl 1
  | cons byte rest ih =>
    intro known
    by_cases accepts : known.accepts byte = true
    · rw [length_replaced accepts, readFrom, step]
      simp only [if_pos accepts]
      rcases extend_cases known byte with ⟨c, whole⟩ | ⟨next, longer⟩
      · rw [whole, List.singleton_append, List.length_cons]
        exact Nat.le_succ _
      · rw [longer, List.nil_append]
        exact Nat.le_succ_of_le (ih next)
    · have broken : ¬ Continued (some known) (byte :: rest) := by
        rintro ⟨other, head, same, opens, taken⟩
        rw [← Option.some.inj same, ← Option.some.inj opens] at taken
        exact accepts taken
      apply Nat.le_of_eq
      rw [readFrom_of_broken broken, flush, List.length_append, List.length_singleton, Nat.add_comm]

/-- A byte that goes on with a character saves one: read on its own it would be replaced. -/
theorem length_of_continued {bytes : List UInt8} (continued : Continued pending bytes) :
    (readFrom pending bytes).length ≤ (readFrom none bytes).length := by
  obtain ⟨known, byte, rfl, opens, accepts⟩ := continued
  cases bytes with
  | nil => contradiction
  | cons head rest =>
    obtain rfl := Option.some.inj opens
    rw [length_replaced accepts, readFrom, step]
    simp only [if_pos accepts]
    rcases extend_cases known head with ⟨c, whole⟩ | ⟨next, longer⟩
    · apply Nat.le_of_eq
      rw [whole, List.singleton_append, List.length_cons]
    · rw [longer, List.nil_append]
      exact length_readFrom_le rest next

/-- What is read of a first piece does not depend on the second. -/
theorem readFrom_append (first : List UInt8) : ∀ pending : Option Pending, ∃ text,
    readFrom pending first = text ++ flush (left pending first) ∧
      ∀ second, readFrom pending (first ++ second) =
        text ++ readFrom (left pending first) second := by
  induction first with
  | nil => exact fun pending => ⟨[], rfl, fun second => rfl⟩
  | cons byte rest ih =>
    intro pending
    obtain ⟨text, alone, followed⟩ := ih (step pending byte).2
    refine ⟨(step pending byte).1 ++ text, ?_, fun second => ?_⟩
    · rw [readFrom, alone, List.append_assoc]
      rfl
    · rw [List.cons_append, readFrom, followed, List.append_assoc]
      rfl

/-- Two pieces are read as one when the first does not end inside a character of the second. -/
theorem lossy_append_of_broken {first second : List UInt8}
    (broken : ¬ Continued (left none first) second) :
    lossy (first ++ second) = lossy first ++ lossy second := by
  obtain ⟨text, alone, followed⟩ := readFrom_append first none
  rw [lossy, followed, readFrom_of_broken broken, lossy, alone, lossy, List.append_assoc]

/-- Two pieces that part a character are read as more than the whole. -/
theorem length_of_parted {first second : List UInt8} (parted : Continued (left none first) second) :
    (lossy (first ++ second)).length < (lossy first ++ lossy second).length := by
  obtain ⟨text, alone, followed⟩ := readFrom_append first none
  have saves := length_of_continued parted
  obtain ⟨known, byte, pending, _⟩ := parted
  rw [pending, flush] at alone
  rw [lossy, followed, lossy, alone, lossy]
  simp only [List.length_append, List.length_singleton]
  omega

/-- Two pieces are read as no less than the whole. -/
theorem length_append_le (first second : List UInt8) :
    (lossy (first ++ second)).length ≤ (lossy first ++ lossy second).length := by
  by_cases parted : Continued (left none first) second
  · exact Nat.le_of_lt (length_of_parted parted)
  · apply Nat.le_of_eq
    rw [lossy_append_of_broken parted]

/-- Pieces are read as no less than the whole. -/
theorem length_flatten_le (pieces : List (List UInt8)) :
    (lossy pieces.flatten).length ≤ (pieces.map lossy).flatten.length := by
  induction pieces with
  | nil => exact Nat.le_refl 0
  | cons piece later ih =>
    have first := length_append_le piece later.flatten
    rw [List.flatten_cons, List.map_cons, List.flatten_cons]
    rw [List.length_append] at first ⊢
    omega

/-- Pieces are read as the whole exactly when none ends inside a character that the next byte goes on
with. -/
theorem lossy_pieces_iff (pieces : List (List UInt8)) :
    (pieces.map lossy).flatten = lossy pieces.flatten ↔ Whole pieces := by
  induction pieces with
  | nil => exact iff_of_true rfl trivial
  | cons piece later ih =>
    rw [List.map_cons, List.flatten_cons, List.flatten_cons, Whole]
    by_cases parted : Continued (left none piece) later.flatten
    · refine iff_of_false ?_ fun whole => whole.1 parted
      intro same
      have more := length_of_parted parted
      have rest := length_flatten_le later
      rw [← same, List.length_append, List.length_append] at more
      omega
    · rw [lossy_append_of_broken parted, List.append_cancel_left_eq, ih]
      exact (and_iff_right parted).symm

end Reading

end Rcurl.LossyUtf8
