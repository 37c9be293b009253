import Rcurl.Telnet.Session
import Rcurl.Whois.Handler

/-!
# Text that comes in pieces

Both the reply of a WHOIS server and the data of a telnet session are turned into text a piece at a
time. `decoding_iff` says when the text is that of all the bytes: a character that is cut between two
pieces is printed as replacement characters.
-/

namespace Rcurl

open ShellWords (Text)

/-- A WHOIS server that answers in pieces. -/
def answering (pieces : List WhoisPiece) : WhoisWorld where
  connects _ := true
  writes _ := true
  flushes := true
  reads := pieces.map .piece ++ [.closed]

/-- The data that the moves of a telnet session bring. -/
def dataOf (moves : List TelnetMove) : List Bytes :=
  moves.filterMap fun move => match move with
    | .event (.data bytes) => some bytes
    | .event _ | .stdin | .receive | .hangUp => none

/-- The text of the data that a move brings. -/
theorem printed_step {state next : TelnetState} {move : TelnetMove}
    (moves : state.step move = some next) :
    next.printed = state.printed ++ ((dataOf [move]).map LossyUtf8.lossy).flatten := by
  cases move with
  | stdin =>
    rw [TelnetState.step] at moves
    split at moves
    · rw [← Option.some.inj moves]
      exact (List.append_nil _).symm
    · contradiction
  | event event =>
    rw [TelnetState.step] at moves
    split_ifs at moves with phase
    rw [← Option.some.inj moves]
    cases event with
    | data bytes =>
      have single : dataOf [.event (.data bytes)] = [bytes] := rfl
      rw [single, List.map_singleton, List.flatten_singleton]
      rfl
    | _ => exact (List.append_nil _).symm
  | receive =>
    rw [TelnetState.step] at moves
    split_ifs at moves with phase
    cases given : state.channel with
    | nil =>
      rw [given] at moves
      rw [← Option.some.inj moves]
      exact (List.append_nil _).symm
    | cons buffer channel =>
      rw [given] at moves
      rw [← Option.some.inj moves, TelnetState.receive]
      split_ifs
      · exact (List.append_nil _).symm
      · exact (List.append_nil _).symm
  | hangUp =>
    rw [TelnetState.step] at moves
    split_ifs at moves with gone
    rw [← Option.some.inj moves]
    exact (List.append_nil _).symm

/-- The text of the data that moves bring. -/
theorem printed_run (moves : List TelnetMove) : ∀ {state last : TelnetState},
    state.run moves = some last →
      last.printed = state.printed ++ ((dataOf moves).map LossyUtf8.lossy).flatten := by
  induction moves with
  | nil =>
    intro state last run
    rw [← Option.some.inj run]
    exact (List.append_nil _).symm
  | cons move moves ih =>
    intro state last run
    obtain ⟨next, first, rest⟩ := Option.bind_eq_some_iff.mp run
    have whole : dataOf (move :: moves) = dataOf [move] ++ dataOf moves :=
      List.filterMap_append (l := [move])
    rw [ih rest, printed_step first, whole, List.map_append, List.flatten_append, List.append_assoc]

/-- The text of a WHOIS reply is the texts of its pieces. -/
theorem whoisCommand_answering (names : WhoisNames) (target : Text) (pieces : List WhoisPiece) :
    whoisCommand names (answering pieces) target =
      .ok ((pieces.map (·.bytes)).map LossyUtf8.lossy).flatten := by
  rw [List.map_map]
  exact readResponse_pieces pieces []

/-- The text printed is that of all the bytes exactly when no piece ends inside a character that the
next byte goes on with: for every WHOIS reply, however it is read, and for every run of a telnet
session. -/
theorem decoding_iff (names : WhoisNames) (target : Text) (pieces : List WhoisPiece)
    (reads : List StdinRead) (moves : List TelnetMove) (state : TelnetState)
    (run : TelnetState.run { reads } moves = some state) :
    (whoisCommand names (answering pieces) target =
        .ok (LossyUtf8.lossy (pieces.map (·.bytes)).flatten) ↔
      LossyUtf8.Whole (pieces.map (·.bytes))) ∧
    (state.printed = LossyUtf8.lossy (dataOf moves).flatten ↔ LossyUtf8.Whole (dataOf moves)) := by
  constructor
  · rw [whoisCommand_answering, Except.ok.injEq]
    exact LossyUtf8.lossy_pieces_iff _
  · rw [printed_run moves run, List.nil_append]
    exact LossyUtf8.lossy_pieces_iff _

/-! ## A character in two pieces -/

/-- Names that are in lower case. -/
def lowerNames : WhoisNames where
  toLowercase := id
  isIpAddr _ := false

/-- A piece of one byte. -/
def onePiece (byte : UInt8) : WhoisPiece where
  bytes := [byte]
  fits := ⟨List.cons_ne_nil byte [], Nat.le_add_left 1 8191⟩

/-- Text without cut characters. -/
theorem decoding_ascii :
    whoisCommand lowerNames (answering [onePiece 0x68, onePiece 0x69]) "h.org".toList =
        .ok "hi".toList ∧
      TelnetState.run { reads := [] } [.event (.data [0x68]), .receive, .event (.data [0x69])] =
        some { reads := [], phase := .receiving, printed := "hi".toList } := by
  have run : TelnetState.run { reads := [] }
      [.event (.data [0x68]), .receive, .event (.data [0x69])] =
        some { reads := [], phase := .receiving, printed := "hi".toList } := by decide
  have whole : LossyUtf8.Whole [[0x68], [0x69]] := by
    refine ⟨?_, ?_, trivial⟩
    · rintro ⟨known, byte, pending, _⟩
      contradiction
    · rintro ⟨known, byte, pending, _⟩
      contradiction
  have text := decoding_iff lowerNames "h.org".toList [onePiece 0x68, onePiece 0x69] _ _ _ run
  exact ⟨text.1.mpr whole, run⟩

/-- A character of two bytes that come one by one is printed as two replacement characters. -/
theorem decoding_cut : ¬ ∀ (names : WhoisNames) (target : Text) (pieces : List WhoisPiece),
    whoisCommand names (answering pieces) target =
      .ok (LossyUtf8.lossy (pieces.map (·.bytes)).flatten) := by
  intro whole
  have text := whole lowerNames "h.org".toList [onePiece 0xC3, onePiece 0xA9]
  rw [whoisCommand_answering, Except.ok.injEq] at text
  exact absurd text (by decide)

end Rcurl
