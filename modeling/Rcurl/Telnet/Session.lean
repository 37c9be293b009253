import Rcurl.Foundation.LossyUtf8
import Rcurl.Http.Message

/-!
# Telnet sessions

`telnet::handler::run_telnet`: a thread reads lines from the standard input and sends them over a
channel, in which an empty buffer says stop; the main loop reads an event from the connection and
takes a buffer from the channel, in turns. The thread and the loop move in any order. What the thread
would send is accounted for at every moment: it is written, or in the channel, or not read yet.
-/

namespace Rcurl

open ShellWords (Text)

/-- What `stdin.read_line` comes to. -/
inductive StdinRead where
  /-- A line with its ending, or a last line without one. -/
  | line (text : Text)
  /-- The end of the input. -/
  | eof
  /-- An error, with what it leaves in the buffer: nothing, when the line is not UTF-8. -/
  | failed (left : Text)
  deriving DecidableEq, Repr

/-- The verbs of a telnet negotiation. -/
inductive TelnetAction where
  | will | wont | request | refuse
  deriving DecidableEq, Repr

/-- What `telnet.read_nonblocking` comes to. -/
inductive TelnetEvent where
  /-- Bytes that are meant for the user. -/
  | data (bytes : Bytes)
  /-- The server speaks of an option. -/
  | negotiation (action : TelnetAction) (option : UInt8)
  /-- The server gives the value of an option. -/
  | subnegotiation
  /-- Nothing came in time. -/
  | timedOut
  /-- Nothing is there to be read. -/
  | noData
  /-- A command that the crate does not know. -/
  | unknownIac
  /-- The server breaks the rules. -/
  | error
  /-- The connection cannot be read. -/
  | readError
  deriving DecidableEq, Repr

/-- Why the main loop is left. -/
inductive LoopExit where
  /-- An empty buffer was received. -/
  | sentinel
  /-- The connection failed. -/
  | telnetError
  /-- The thread is gone. -/
  | disconnected
  deriving DecidableEq, Repr

/-- Where the main loop stands. -/
inductive LoopPhase where
  /-- Before it reads from the connection. -/
  | reading
  /-- Before it takes from the channel. -/
  | receiving
  /-- Behind the loop. -/
  | left (exit : LoopExit)
  deriving DecidableEq, Repr

/-- A session. -/
structure TelnetState where
  /-- What the standard input will still come to. -/
  reads : List StdinRead
  /-- The thread is in its loop. -/
  typing : Bool := true
  /-- The buffers sent and not received. -/
  channel : List Bytes := []
  /-- The main loop. -/
  phase : LoopPhase := .reading
  /-- The buffers written to the connection. -/
  written : List Bytes := []
  /-- What has gone to standard output. -/
  printed : Text := []
  /-- The answers to negotiations. -/
  answers : List (TelnetAction × UInt8) := []
  deriving DecidableEq, Repr

/-- A line ends in one of these. -/
def isLineEnd (c : Char) : Bool := c == '\r' || c == '\n'

/-- `trim_end_matches` of the line ends. -/
def trimLine (text : Text) : Text := (text.reverse.dropWhile isLineEnd).reverse

/-- The words that stop a session. -/
def isStop (line : Text) : Bool := line == "quit".toList || line == "exit".toList

/-- Carriage return and line feed. -/
def crlf : Bytes := [13, 10]

/-- The buffer the thread sends for what is left in its input. -/
def lineBuffer (text : Text) : Bytes :=
  if isStop (trimLine text) then [] else Utf8.encode (trimLine text) ++ crlf

/-- The buffer the thread sends for a read: only the end of the input is told apart from a line. -/
def stdinBuffer : StdinRead → Bytes
  | .eof => []
  | .line text | .failed text => lineBuffer text

/-- What a negotiation is answered. -/
def negotiate : TelnetAction → Option TelnetAction
  | .request => some .wont
  | .will => some .refuse
  | .wont | .refuse => none

/-- The main loop at an event. -/
def TelnetState.handle (state : TelnetState) : TelnetEvent → TelnetState
  | .data bytes =>
    { state with printed := state.printed ++ LossyUtf8.lossy bytes, phase := .receiving }
  | .negotiation action option =>
    { state with
      answers := state.answers ++ ((negotiate action).map (·, option)).toList, phase := .receiving }
  | .subnegotiation | .timedOut | .noData | .unknownIac => { state with phase := .receiving }
  | .error | .readError => { state with phase := .left .telnetError }

/-- The main loop at a buffer. -/
def TelnetState.receive (state : TelnetState) (buffer : Bytes) (channel : List Bytes) : TelnetState :=
  if buffer = [] then { state with channel, phase := .left .sentinel }
  else { state with channel, phase := .reading, written := state.written ++ [buffer] }

/-- A move of the thread or of the main loop. -/
inductive TelnetMove where
  /-- The thread reads and sends. -/
  | stdin
  /-- The main loop reads from the connection. -/
  | event (event : TelnetEvent)
  /-- The main loop takes from the channel, when there is something. -/
  | receive
  /-- The main loop finds that the thread is gone. -/
  | hangUp
  deriving DecidableEq, Repr

/-- A move, when it is possible. A thread that is through may not be gone yet. -/
def TelnetState.step (state : TelnetState) : TelnetMove → Option TelnetState
  | .stdin =>
    match state.typing, state.reads with
    | true, read :: reads =>
      some { state with
        reads, typing := stdinBuffer read ≠ [], channel := state.channel ++ [stdinBuffer read] }
    | _, _ => none
  | .event event => if state.phase = .reading then some (state.handle event) else none
  | .receive =>
    if state.phase = .receiving then
      match state.channel with
      | [] => some { state with phase := .reading }
      | buffer :: channel => some (state.receive buffer channel)
    else none
  | .hangUp =>
    if state.phase = .receiving ∧ state.channel = [] ∧ state.typing = false then
      some { state with phase := .left .disconnected }
    else none

/-- Moves in order. -/
def TelnetState.run (state : TelnetState) : List TelnetMove → Option TelnetState
  | [] => some state
  | move :: moves => (state.step move).bind (·.run moves)

/-! ## What is sent -/

/-- The buffers the thread sends, the last of them empty when it stops. -/
def sends : List StdinRead → List Bytes
  | [] => []
  | read :: reads => stdinBuffer read :: if stdinBuffer read = [] then [] else sends reads

/-- The empty buffer that was received. -/
def TelnetState.stopped (state : TelnetState) : List Bytes :=
  if state.phase = .left .sentinel then [[]] else []

/-- The buffers that the thread has not sent yet. -/
def TelnetState.unsent (state : TelnetState) : List Bytes :=
  if state.typing then sends state.reads else []

/-- Every buffer the thread sends is written, received as the stop, in the channel or not sent yet, in
this order; and no empty one is written. -/
structure Accounted (reads : List StdinRead) (state : TelnetState) : Prop where
  /-- The account. -/
  account : sends reads = state.written ++ (state.stopped ++ (state.channel ++ state.unsent))
  /-- What is written is not empty. -/
  solid : ∀ buffer ∈ state.written, buffer ≠ []

section Moves

variable {reads : List StdinRead} {state next : TelnetState}

/-- At the start nothing is sent. -/
theorem accounted_start : Accounted reads { reads } := ⟨rfl, by simp⟩

/-- The thread moves a buffer into the channel. -/
theorem accounted_stdin (accounted : Accounted reads state)
    (moves : state.step .stdin = some next) : Accounted reads next := by
  obtain ⟨account, solid⟩ := accounted
  rw [TelnetState.step] at moves
  split at moves
  · rename_i read rest typing given
    obtain rfl := Option.some.inj moves
    refine ⟨?_, solid⟩
    rw [account, TelnetState.unsent, typing, given, if_pos rfl, sends]
    simp only [TelnetState.stopped, TelnetState.unsent, decide_eq_true_eq, List.append_assoc,
      List.singleton_append]
    by_cases stops : stdinBuffer read = []
    · rw [if_pos stops, if_neg (not_not_intro stops)]
    · rw [if_neg stops, if_pos stops]
  · contradiction

/-- An event moves no buffer. -/
theorem accounted_event {event : TelnetEvent} (accounted : Accounted reads state)
    (moves : state.step (.event event) = some next) : Accounted reads next := by
  obtain ⟨account, solid⟩ := accounted
  rw [TelnetState.step] at moves
  split_ifs at moves with phase
  obtain rfl := Option.some.inj moves
  rw [TelnetState.stopped, phase] at account
  cases event <;> exact ⟨account, solid⟩

/-- The main loop writes the first buffer of the channel, or takes it for the stop. -/
theorem accounted_receive (accounted : Accounted reads state)
    (moves : state.step .receive = some next) : Accounted reads next := by
  obtain ⟨account, solid⟩ := accounted
  rw [TelnetState.step] at moves
  split_ifs at moves with phase
  rw [TelnetState.stopped, phase] at account
  cases given : state.channel with
  | nil =>
    rw [given] at moves account
    obtain rfl := Option.some.inj moves
    refine ⟨?_, solid⟩
    rw [account]
    rfl
  | cons buffer channel =>
    rw [given] at moves account
    obtain rfl := Option.some.inj moves
    rw [TelnetState.receive]
    by_cases stops : buffer = []
    · rw [if_pos stops]
      refine ⟨?_, solid⟩
      rw [account, stops]
      rfl
    · rw [if_neg stops]
      refine ⟨?_, ?_⟩
      · rw [account]
        simp [TelnetState.stopped, TelnetState.unsent]
      · intro other member
        rcases List.mem_append.mp member with before | last
        · exact solid other before
        · rw [List.mem_singleton.mp last]
          exact stops

/-- Finding the thread gone moves no buffer. -/
theorem accounted_hangUp (accounted : Accounted reads state)
    (moves : state.step .hangUp = some next) : Accounted reads next := by
  obtain ⟨account, solid⟩ := accounted
  rw [TelnetState.step] at moves
  split_ifs at moves with gone
  obtain rfl := Option.some.inj moves
  rw [TelnetState.stopped, gone.1] at account
  exact ⟨account, solid⟩

/-- Every move keeps the account. -/
theorem accounted_step {move : TelnetMove} (accounted : Accounted reads state)
    (moves : state.step move = some next) : Accounted reads next := by
  cases move with
  | stdin => exact accounted_stdin accounted moves
  | event event => exact accounted_event accounted moves
  | receive => exact accounted_receive accounted moves
  | hangUp => exact accounted_hangUp accounted moves

/-- Every run keeps the account. -/
theorem accounted_run (moves : List TelnetMove) : ∀ {state : TelnetState},
    Accounted reads state → state.run moves = some next → Accounted reads next := by
  induction moves with
  | nil =>
    intro state accounted run
    rw [← Option.some.inj run]
    exact accounted
  | cons move moves ih =>
    intro state accounted run
    obtain ⟨middle, first, rest⟩ := Option.bind_eq_some_iff.mp run
    exact ih (accounted_step accounted first) rest

end Moves

end Rcurl
