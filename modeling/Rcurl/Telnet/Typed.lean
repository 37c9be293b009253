import Rcurl.Telnet.Session

/-!
# What is typed in a telnet session

A session should send the lines that are typed, each with a telnet line end, up to the word that stops
it. A read that fails is taken for an empty line, and a line loses every carriage return before its
end: `telnet_sends_typed` holds of every run on reads without either.
-/

namespace Rcurl

open ShellWords (Text)

/-- A line without its ending: a line feed, and a carriage return before it. -/
def stripEnding (text : Text) : Text :=
  match text.reverse with
  | '\n' :: '\r' :: rest => rest.reverse
  | '\n' :: rest => rest.reverse
  | _ => text

/-- The lines that are read before the first that stops the session and before the end of the input,
each without its ending and with a telnet line end. -/
def typed : List StdinRead → List Bytes
  | [] => []
  | .eof :: _ => []
  | .failed _ :: reads => typed reads
  | .line text :: reads =>
    if isStop (stripEnding text) then []
    else (Utf8.encode (stripEnding text) ++ crlf) :: typed reads

/-- Up to the stop no read fails, unless it leaves a word that stops and nothing is typed after it, and
every line loses its ending and no more. -/
def ReadsCleanly : List StdinRead → Prop
  | [] => True
  | .eof :: _ => True
  | .failed left :: reads => isStop (trimLine left) = true ∧ typed reads = []
  | .line text :: reads =>
    trimLine text = stripEnding text ∧ (isStop (trimLine text) = true ∨ ReadsCleanly reads)

/-- What is written is at every moment a first part of what is typed, and all of it when the loop is
left at the empty buffer. -/
def SendsTyped (reads : List StdinRead) (state : TelnetState) : Prop :=
  state.written <+: typed reads ∧ (state.phase = .left .sentinel → state.written = typed reads)

/-- The buffers before the empty one. -/
def beforeStop (buffers : List Bytes) : List Bytes := buffers.takeWhile (· ≠ [])

/-- A buffer that says stop. -/
theorem lineBuffer_stop {text : Text} (stops : isStop (trimLine text) = true) :
    lineBuffer text = [] := by
  rw [lineBuffer, if_pos stops]

/-- A buffer that holds a line. -/
theorem lineBuffer_line {text : Text} (goes : ¬ isStop (trimLine text) = true) :
    lineBuffer text = Utf8.encode (trimLine text) ++ crlf := by
  rw [lineBuffer, if_neg goes]

/-- A line is never sent as the empty buffer. -/
theorem lineBuffer_ne_nil {text : Text} (goes : ¬ isStop (trimLine text) = true) :
    lineBuffer text ≠ [] := by
  rw [lineBuffer_line goes]
  exact List.append_ne_nil_of_right_ne_nil _ (List.cons_ne_nil 13 [10])

/-- A read that stops the thread is the last thing sent. -/
theorem beforeStop_stop {read : StdinRead} {reads : List StdinRead} (stops : stdinBuffer read = []) :
    beforeStop (sends (read :: reads)) = [] := by
  rw [beforeStop, sends, stops, if_pos rfl]
  rfl

/-- A read that does not stop the thread is sent before the others. -/
theorem beforeStop_line {read : StdinRead} {reads : List StdinRead} (goes : stdinBuffer read ≠ []) :
    beforeStop (sends (read :: reads)) = stdinBuffer read :: beforeStop (sends reads) := by
  rw [beforeStop, sends, if_neg goes, List.takeWhile_cons_of_pos (by simpa using goes)]
  rfl

/-- From clean reads the thread sends what is typed. -/
theorem beforeStop_sends {reads : List StdinRead} (clean : ReadsCleanly reads) :
    beforeStop (sends reads) = typed reads := by
  induction reads with
  | nil => rfl
  | cons read reads ih =>
    cases read with
    | eof => rfl
    | failed left =>
      have buffer : stdinBuffer (.failed left) = [] := lineBuffer_stop clean.1
      rw [beforeStop_stop buffer, typed, clean.2]
    | line text =>
      obtain ⟨same, later⟩ := clean
      rw [typed, ← same]
      by_cases stops : isStop (trimLine text) = true
      · rw [if_pos stops]
        exact beforeStop_stop (lineBuffer_stop stops)
      · have buffer : stdinBuffer (.line text) = Utf8.encode (trimLine text) ++ crlf :=
          lineBuffer_line stops
        have solid : stdinBuffer (.line text) ≠ [] := lineBuffer_ne_nil stops
        rw [if_neg stops, beforeStop_line solid, buffer, ih (later.resolve_left stops)]

/-- What is written comes before the stop, and is all of it once the stop is received. -/
theorem written_beforeStop {reads : List StdinRead} {state : TelnetState}
    (accounted : Accounted reads state) :
    state.written <+: beforeStop (sends reads) ∧
      (state.phase = .left .sentinel → state.written = beforeStop (sends reads)) := by
  have whole : beforeStop (sends reads) =
      state.written ++ beforeStop (state.stopped ++ (state.channel ++ state.unsent)) := by
    rw [beforeStop, accounted.account]
    apply List.takeWhile_append_of_pos
    intro buffer member
    exact decide_eq_true (accounted.solid buffer member)
  constructor
  · rw [whole]
    exact List.prefix_append _ _
  · intro stopped
    rw [whole, TelnetState.stopped, if_pos stopped]
    exact (List.append_nil _).symm

/-- In every run on clean reads, whatever the order of the moves, what is written is a first part of
what is typed, and all of it when the loop is left at the empty buffer. -/
theorem telnet_sends_typed (reads : List StdinRead) (clean : ReadsCleanly reads)
    (moves : List TelnetMove) (state : TelnetState)
    (run : TelnetState.run { reads } moves = some state) : SendsTyped reads state := by
  have parts := written_beforeStop (accounted_run moves accounted_start run)
  rw [beforeStop_sends clean] at parts
  exact parts

/-! ## A line, and a read that fails -/

/-- A line is typed, then `quit`. -/
theorem telnet_sends_line : SendsTyped [.line "ls\r\n".toList, .line "quit\n".toList]
    { reads := [], typing := false, phase := .left .sentinel, written := [[108, 115, 13, 10]] } := by
  have clean : ReadsCleanly [.line "ls\r\n".toList, .line "quit\n".toList] :=
    ⟨by decide, .inr ⟨by decide, .inl (by decide)⟩⟩
  exact telnet_sends_typed _ clean
    [.stdin, .event .noData, .receive, .stdin, .event .noData, .receive] _ (by decide)

/-- A read that fails is sent as an empty line. -/
theorem telnet_sends_failed : ¬ ∀ (reads : List StdinRead) (moves : List TelnetMove)
    (state : TelnetState), TelnetState.run { reads } moves = some state → SendsTyped reads state := by
  intro sends_typed
  have sent : TelnetState.run { reads := [.failed [], .eof] } [.stdin, .event .noData, .receive] =
      some { reads := [.eof], written := [crlf] } := by decide
  have part := (sends_typed _ _ _ sent).1
  exact absurd part (by decide)

end Rcurl
