import Rcurl.Foundation.Machine
import Rcurl.Telnet.Session

/-!
# How a telnet session ends

`run_telnet` leaves its main loop and then joins the thread at the standard input, which only a stop
ends: the end of the input, `quit` or `exit`. A connection that breaks ends the loop but not the
session, and what is typed afterwards is lost. `telnet_returns_iff` says when a session can return,
`session_record` what it has shown, answered and ended by, in any order of the moves.
-/

namespace Rcurl

open ShellWords (Text)

/-- The run of a session is a run of its machine. -/
theorem telnetRun_eq (moves : List TelnetMove) : ∀ state : TelnetState,
    state.run moves = Machine.run TelnetState.step state moves := by
  induction moves with
  | nil => exact fun state => rfl
  | cons move moves ih =>
    intro state
    rw [TelnetState.run, Machine.run_cons]
    congr 1
    funext next
    exact ih next

/-- The session is over: the main loop is left, and the thread that is joined is through. -/
def TelnetState.Returned (state : TelnetState) : Prop :=
  (∃ exit, state.phase = .left exit) ∧ state.typing = false

/-- A read that ends the thread. -/
def StdinRead.Stops (read : StdinRead) : Prop := stdinBuffer read = []

/-- The thread is in its loop exactly while it has read no stop. -/
def ReadSoFar (reads : List StdinRead) (state : TelnetState) : Prop :=
  ∃ past, reads = past ++ state.reads ∧ (state.typing = true ↔ ∀ read ∈ past, ¬ read.Stops)

section Moves

variable {reads : List StdinRead} {state next : TelnetState}

/-- What the thread does when it reads. -/
theorem step_stdin (moves : state.step .stdin = some next) :
    ∃ read rest, state.typing = true ∧ state.reads = read :: rest ∧ next = { state with
      reads := rest, typing := stdinBuffer read ≠ [], channel := state.channel ++ [stdinBuffer read] } := by
  rw [TelnetState.step] at moves
  split at moves
  · rename_i read rest typing given
    exact ⟨read, rest, typing, given, (Option.some.inj moves).symm⟩
  · contradiction

/-- What the main loop does at an event. -/
theorem step_event {event : TelnetEvent} (moves : state.step (.event event) = some next) :
    state.phase = .reading ∧ next = state.handle event := by
  rw [TelnetState.step] at moves
  split_ifs at moves with phase
  exact ⟨phase, (Option.some.inj moves).symm⟩

/-- What the main loop does at the channel. -/
theorem step_receive (moves : state.step .receive = some next) :
    state.phase = .receiving ∧ ((state.channel = [] ∧ next = { state with phase := .reading }) ∨
      ∃ buffer channel, state.channel = buffer :: channel ∧ next = state.receive buffer channel) := by
  rw [TelnetState.step] at moves
  split_ifs at moves with phase
  refine ⟨phase, ?_⟩
  cases given : state.channel with
  | nil =>
    rw [given] at moves
    exact Or.inl ⟨rfl, (Option.some.inj moves).symm⟩
  | cons buffer channel =>
    rw [given] at moves
    exact Or.inr ⟨buffer, channel, rfl, (Option.some.inj moves).symm⟩

/-- What the main loop does when the thread is gone. -/
theorem step_hangUp (moves : state.step .hangUp = some next) :
    state.phase = .receiving ∧ state.channel = [] ∧ state.typing = false ∧
      next = { state with phase := .left .disconnected } := by
  rw [TelnetState.step] at moves
  split_ifs at moves with gone
  exact ⟨gone.1, gone.2.1, gone.2.2, (Option.some.inj moves).symm⟩

/-- An event leaves the thread and the channel alone. -/
theorem handle_thread (state : TelnetState) (event : TelnetEvent) :
    (state.handle event).reads = state.reads ∧ (state.handle event).typing = state.typing ∧
      (state.handle event).channel = state.channel := by
  cases event <;> exact ⟨rfl, rfl, rfl⟩

/-- A buffer that is received leaves the thread alone. -/
theorem receive_thread (state : TelnetState) (buffer : Bytes) (channel : List Bytes) :
    (state.receive buffer channel).reads = state.reads ∧
      (state.receive buffer channel).typing = state.typing := by
  rw [TelnetState.receive]
  split_ifs
  · exact ⟨rfl, rfl⟩
  · exact ⟨rfl, rfl⟩

/-- The main loop leaves the thread alone. -/
theorem step_thread {move : TelnetMove} (loop : move ≠ .stdin) (moves : state.step move = some next) :
    next.reads = state.reads ∧ next.typing = state.typing := by
  cases move with
  | stdin => exact (loop rfl).elim
  | event event =>
    obtain ⟨_, same⟩ := step_event moves
    rw [same]
    exact ⟨(handle_thread state event).1, (handle_thread state event).2.1⟩
  | receive =>
    obtain ⟨_, ⟨_, same⟩ | ⟨buffer, channel, _, same⟩⟩ := step_receive moves
    · rw [same]
      exact ⟨rfl, rfl⟩
    · rw [same]
      exact receive_thread state buffer channel
  | hangUp =>
    obtain ⟨_, _, _, same⟩ := step_hangUp moves
    rw [same]
    exact ⟨rfl, rfl⟩

/-- Every move keeps the account of the reads. -/
theorem readSoFar_step {move : TelnetMove} (soFar : ReadSoFar reads state)
    (moves : state.step move = some next) : ReadSoFar reads next := by
  obtain ⟨past, split, typing⟩ := soFar
  by_cases loop : move = .stdin
  · rw [loop] at moves
    obtain ⟨read, rest, open_, given, same⟩ := step_stdin moves
    refine ⟨past ++ [read], ?_, ?_⟩
    · rw [split, given, same, List.append_assoc]
      rfl
    · have before := typing.mp open_
      rw [same]
      simp only [decide_eq_true_eq, List.forall_mem_append, List.forall_mem_singleton]
      exact ⟨fun goes => ⟨before, goes⟩, fun both => both.2⟩
  · obtain ⟨sameReads, sameTyping⟩ := step_thread loop moves
    refine ⟨past, ?_, ?_⟩
    · rw [sameReads, split]
    · rw [sameTyping, typing]

/-- A thread that is through has read a stop. -/
theorem ReadSoFar.stops (soFar : ReadSoFar reads state) (through : state.typing = false) :
    ∃ read ∈ reads, read.Stops := by
  obtain ⟨past, split, typing⟩ := soFar
  by_contra never
  have open_ : state.typing = true := by
    apply typing.mpr
    intro read member stops
    have given : read ∈ reads := by
      rw [split]
      exact List.mem_append_left _ member
    exact never ⟨read, given, stops⟩
  rw [open_] at through
  contradiction

/-- In every run the thread is in its loop exactly while it has read no stop. -/
theorem readSoFar_run {moves : List TelnetMove} (run : TelnetState.run { reads } moves = some next) :
    ReadSoFar reads next := by
  rw [telnetRun_eq] at run
  have start : ReadSoFar reads { reads } := ⟨[], rfl, iff_of_true rfl (by simp)⟩
  exact Machine.run_keeps readSoFar_step start run

end Moves

/-! ## When a session returns -/

section Ending

variable {reads : List StdinRead} {state : TelnetState}

/-- The thread reads on until it meets a stop. -/
theorem reaches_thread_end (rest : List StdinRead) : ∀ {state : TelnetState}, state.reads = rest →
    (∃ read ∈ rest, read.Stops) →
      Machine.Reaches TelnetState.step state fun last => last.typing = false := by
  induction rest with
  | nil =>
    intro state given stops
    obtain ⟨read, member, _⟩ := stops
    exact (List.not_mem_nil member).elim
  | cons read rest ih =>
    intro state given stops
    cases typing : state.typing with
    | false => exact Machine.Reaches.here typing
    | true =>
      have taken : state.step .stdin = some { state with
          reads := rest, typing := stdinBuffer read ≠ [],
          channel := state.channel ++ [stdinBuffer read] } := by
        rw [TelnetState.step, typing, given]
      apply Machine.Reaches.by_move taken
      by_cases now : read.Stops
      · exact Machine.Reaches.here (decide_eq_false (not_not_intro now))
      · apply ih rfl
        obtain ⟨other, member, later⟩ := stops
        rcases List.mem_cons.mp member with same | rest
        · exact (now (same ▸ later)).elim
        · exact ⟨other, rest, later⟩

/-- Once the thread is through, the main loop takes its buffers up to the empty one. -/
theorem reaches_sentinel (channel : List Bytes) : ∀ {state : TelnetState}, state.channel = channel →
    [] ∈ channel → state.typing = false → state.phase = .receiving →
      Machine.Reaches TelnetState.step state TelnetState.Returned := by
  induction channel with
  | nil => exact fun _ absent => (List.not_mem_nil absent).elim
  | cons buffer channel ih =>
    intro state given waiting through phase
    have taken : state.step .receive = some (state.receive buffer channel) := by
      rw [TelnetState.step, if_pos phase, given]
    apply Machine.Reaches.by_move taken
    by_cases stop : buffer = []
    · apply Machine.Reaches.here
      rw [TelnetState.receive, if_pos stop]
      exact ⟨⟨.sentinel, rfl⟩, through⟩
    · rw [TelnetState.receive, if_neg stop]
      have idle : TelnetState.step { state with
            channel, phase := .reading, written := state.written ++ [buffer] } (.event .noData) =
          some { state with channel, phase := .receiving, written := state.written ++ [buffer] } := by
        rw [TelnetState.step, if_pos rfl]
        rfl
      apply Machine.Reaches.by_move idle
      have behind : [] ∈ channel := (List.mem_cons.mp waiting).resolve_left fun same => stop same.symm
      exact ih rfl behind through rfl

/-- A stop among the reads is sent. -/
theorem mem_sends_of_stops (stops : ∃ read ∈ reads, read.Stops) : [] ∈ sends reads := by
  induction reads with
  | nil =>
    obtain ⟨read, member, _⟩ := stops
    exact (List.not_mem_nil member).elim
  | cons read reads ih =>
    rw [sends]
    by_cases now : stdinBuffer read = []
    · rw [now]
      exact List.mem_cons_self
    · rw [if_neg now]
      obtain ⟨other, member, later⟩ := stops
      rcases List.mem_cons.mp member with same | rest
      · exact (now (same ▸ later)).elim
      · exact List.mem_cons_of_mem _ (ih ⟨other, rest, later⟩)

/-- A stop that is sent and not yet received is in the channel. -/
theorem sentinel_waits (accounted : Accounted reads state) (stops : ∃ read ∈ reads, read.Stops)
    (through : state.typing = false) (inside : state.phase ≠ .left .sentinel) :
    [] ∈ state.channel := by
  have sent := mem_sends_of_stops stops
  have none : state.stopped = [] := by rw [TelnetState.stopped, if_neg inside]
  have all : state.unsent = [] := by rw [TelnetState.unsent, through, if_neg Bool.false_ne_true]
  rw [accounted.account, none, all, List.append_nil, List.nil_append, List.mem_append] at sent
  exact sent.resolve_left fun written => accounted.solid [] written rfl

/-- A session whose thread is through can return. -/
theorem reaches_returned (accounted : Accounted reads state) (stops : ∃ read ∈ reads, read.Stops)
    (through : state.typing = false) :
    Machine.Reaches TelnetState.step state TelnetState.Returned := by
  cases phase : state.phase with
  | left exit => exact Machine.Reaches.here ⟨⟨exit, phase⟩, through⟩
  | receiving =>
    have waiting := sentinel_waits accounted stops through (by rw [phase]; exact LoopPhase.noConfusion)
    exact reaches_sentinel _ rfl waiting through phase
  | reading =>
    have waiting := sentinel_waits accounted stops through (by rw [phase]; exact LoopPhase.noConfusion)
    have idle : state.step (.event .noData) = some { state with phase := .receiving } := by
      rw [TelnetState.step, if_pos phase]
      rfl
    apply Machine.Reaches.by_move idle
    exact reaches_sentinel _ rfl waiting through rfl

end Ending

/-- A loop that is left stays left, and says and prints nothing more. -/
def TelnetState.SameBehind (state next : TelnetState) : Prop :=
  next.phase = state.phase ∧ next.written = state.written ∧ next.printed = state.printed ∧
    next.answers = state.answers

/-- Behind the loop only the thread moves. -/
theorem left_step {state next : TelnetState} {move : TelnetMove} {exit : LoopExit}
    (left : state.phase = .left exit) (moves : state.step move = some next) :
    state.SameBehind next := by
  cases move with
  | stdin =>
    obtain ⟨read, rest, _, _, same⟩ := step_stdin moves
    rw [same]
    exact ⟨rfl, rfl, rfl, rfl⟩
  | event event =>
    have reading := (step_event moves).1
    rw [left] at reading
    contradiction
  | receive =>
    have receiving := (step_receive moves).1
    rw [left] at receiving
    contradiction
  | hangUp =>
    have receiving := (step_hangUp moves).1
    rw [left] at receiving
    contradiction

/-- Behind the loop nothing changes but the input. -/
theorem left_run {state last : TelnetState} {moves : List TelnetMove} {exit : LoopExit}
    (left : state.phase = .left exit) (run : state.run moves = some last) : state.SameBehind last := by
  rw [telnetRun_eq] at run
  have start : state.SameBehind state := ⟨rfl, rfl, rfl, rfl⟩
  refine Machine.run_keeps ?_ start run
  rintro middle next move ⟨phase, written, printed, answers⟩ taken
  have later := left_step (phase.trans left) taken
  exact ⟨later.1.trans phase, later.2.1.trans written, later.2.2.1.trans printed,
    later.2.2.2.trans answers⟩

/-- A stop that will be typed ends the thread. -/
theorem thread_ends {reads : List StdinRead} {moves : List TelnetMove} {state : TelnetState}
    (run : TelnetState.run { reads } moves = some state) (stops : ∃ read ∈ reads, read.Stops) :
    Machine.Reaches TelnetState.step state fun last => last.typing = false := by
  obtain ⟨past, split, typing⟩ := readSoFar_run run
  cases running : state.typing with
  | false => exact Machine.Reaches.here running
  | true =>
    apply reaches_thread_end _ rfl
    obtain ⟨read, member, ends⟩ := stops
    rw [split] at member
    rcases List.mem_append.mp member with before | after
    · exact (typing.mp running read before ends).elim
    · exact ⟨read, after, ends⟩

/-- Moves behind a run belong to a longer one. -/
theorem run_behind {reads : List StdinRead} {moves later : List TelnetMove} {state last : TelnetState}
    (run : TelnetState.run { reads } moves = some state) (ends : state.run later = some last) :
    TelnetState.run { reads } (moves ++ later) = some last := by
  rw [telnetRun_eq] at run ends ⊢
  rw [Machine.run_append, run, Option.bind_some, ends]

/-- A session can return, from whatever state it has come to, exactly when a stop is typed at some
time: a connection that has failed makes no difference, but then all that is still typed is lost. -/
theorem telnet_returns_iff (reads : List StdinRead) (moves : List TelnetMove) (state : TelnetState)
    (run : TelnetState.run { reads } moves = some state) :
    ((∃ later last, state.run later = some last ∧ last.Returned) ↔ ∃ read ∈ reads, read.Stops) ∧
      ∀ exit, state.phase = .left exit → ∀ later last, state.run later = some last →
        state.SameBehind last := by
  refine ⟨⟨?_, ?_⟩, fun exit left later last ends => left_run left ends⟩
  · rintro ⟨later, last, ends, _, through⟩
    exact (readSoFar_run (run_behind run ends)).stops through
  · intro stops
    obtain ⟨later, middle, ends, through⟩ := thread_ends run stops
    rw [← telnetRun_eq] at ends
    have accounted := accounted_run _ accounted_start (run_behind run ends)
    have reached := reaches_returned accounted stops through
    rw [telnetRun_eq] at ends
    simp only [telnetRun_eq]
    exact reached.after ends

/-- The connection fails at once: the session waits for `quit`. -/
theorem telnet_returns_failed :
    ((∃ later last, TelnetState.run
          { reads := [.line "ls\n".toList, .line "quit\n".toList], phase := .left .telnetError } later =
        some last ∧ last.Returned) ↔
      ∃ read ∈ [.line "ls\n".toList, .line "quit\n".toList], StdinRead.Stops read) ∧
    ∀ exit, LoopPhase.left .telnetError = .left exit → ∀ later last, TelnetState.run
        { reads := [.line "ls\n".toList, .line "quit\n".toList], phase := .left .telnetError } later =
      some last → TelnetState.SameBehind
        { reads := [.line "ls\n".toList, .line "quit\n".toList], phase := .left .telnetError } last :=
  telnet_returns_iff _ [.event .readError] _ rfl

end Rcurl
