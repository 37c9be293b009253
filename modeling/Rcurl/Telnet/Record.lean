import Rcurl.Telnet.Lifetime

/-!
# What a telnet session leaves behind

What a session prints and answers depends on the events alone, not on how the thread and the main loop
take turns: `session_record`. Every request of the server is refused once and nothing else is asked,
so that no negotiation goes on. The loop is left for a stop or for a failing connection, and never
because the thread is gone.
-/

namespace Rcurl

open ShellWords (Text)

/-- The events that moves bring. -/
def eventsOf (moves : List TelnetMove) : List TelnetEvent :=
  moves.filterMap fun move => match move with
    | .event event => some event
    | .stdin | .receive | .hangUp => none

/-- The text of an event. -/
def TelnetEvent.text : TelnetEvent → Text
  | .data bytes => LossyUtf8.lossy bytes
  | .negotiation _ _ | .subnegotiation | .timedOut | .noData | .unknownIac | .error | .readError => []

/-- What an event asks for: that an option is used here, or over there. -/
def TelnetEvent.request : TelnetEvent → Option (TelnetAction × UInt8)
  | .negotiation .request option => some (.request, option)
  | .negotiation .will option => some (.will, option)
  | .negotiation .wont _ | .negotiation .refuse _ => none
  | .data _ | .subnegotiation | .timedOut | .noData | .unknownIac | .error | .readError => none

/-- The connection has failed. -/
def TelnetEvent.Fails (event : TelnetEvent) : Prop := event = .error ∨ event = .readError

/-- An answer says no to a request for the same option. -/
inductive Refuses : TelnetAction × UInt8 → TelnetAction × UInt8 → Prop
  /-- It is not used here. -/
  | here (option : UInt8) : Refuses (.request, option) (.wont, option)
  /-- It need not be used over there. -/
  | there (option : UInt8) : Refuses (.will, option) (.refuse, option)

/-- What a session has shown after some events, whatever the thread did meanwhile. -/
structure SessionRecord (events : List TelnetEvent) (state : TelnetState) : Prop where
  /-- The text of the events, in order. -/
  printed : state.printed = events.flatMap TelnetEvent.text
  /-- Every request is refused once, in order, and nothing else is said. -/
  answers : List.Forall₂ Refuses (events.filterMap TelnetEvent.request) state.answers
  /-- The loop is left with an error exactly when the connection has failed. -/
  failed : state.phase = .left .telnetError ↔ ∃ event ∈ events, event.Fails
  /-- It is never left because the thread is gone. -/
  connected : state.phase ≠ .left .disconnected

section Moves

variable {reads : List StdinRead} {state next : TelnetState} {events : List TelnetEvent}

/-- Nothing happened yet. -/
theorem record_start : SessionRecord [] { reads } where
  printed := rfl
  answers := .nil
  failed := iff_of_false LoopPhase.noConfusion (by simp)
  connected := LoopPhase.noConfusion

/-- A loop that is not left has not met a failing event. -/
theorem SessionRecord.sound (record : SessionRecord events state)
    (inside : state.phase ≠ .left .telnetError) : ∀ event ∈ events, ¬ event.Fails := by
  intro event member fails
  exact inside (record.failed.mpr ⟨event, member, fails⟩)

/-- The record after a move of the loop that is no event, or of the thread. -/
theorem SessionRecord.keep (record : SessionRecord events state)
    (printed : next.printed = state.printed) (answers : next.answers = state.answers)
    (phase : next.phase = .left .telnetError ↔ state.phase = .left .telnetError)
    (connected : next.phase ≠ .left .disconnected) : SessionRecord events next where
  printed := printed.trans record.printed
  answers := answers ▸ record.answers
  failed := phase.trans record.failed
  connected := connected

/-- The record after a buffer. -/
theorem record_receive (record : SessionRecord events state)
    (moves : state.step .receive = some next) : SessionRecord events next := by
  obtain ⟨phase, ⟨_, same⟩ | ⟨buffer, channel, _, same⟩⟩ := step_receive moves
  · have before : state.phase ≠ .left .telnetError := by rw [phase]; exact LoopPhase.noConfusion
    rw [same]
    exact record.keep rfl rfl (iff_of_false LoopPhase.noConfusion before) LoopPhase.noConfusion
  · have before : state.phase ≠ .left .telnetError := by rw [phase]; exact LoopPhase.noConfusion
    rw [same, TelnetState.receive]
    split_ifs
    · exact record.keep rfl rfl (iff_of_false (by simp) before) (by simp)
    · exact record.keep rfl rfl (iff_of_false LoopPhase.noConfusion before) LoopPhase.noConfusion

/-- The answer to an event refuses what it asks for. -/
theorem handle_answers (state : TelnetState) (event : TelnetEvent) :
    ∃ answers, (state.handle event).answers = state.answers ++ answers ∧
      List.Forall₂ Refuses event.request.toList answers := by
  cases event with
  | negotiation action option =>
    cases action with
    | request => exact ⟨[(.wont, option)], rfl, .cons (.here option) .nil⟩
    | will => exact ⟨[(.refuse, option)], rfl, .cons (.there option) .nil⟩
    | wont | refuse => exact ⟨[], rfl, .nil⟩
  | data | subnegotiation | timedOut | noData | unknownIac | error | readError =>
    exact ⟨[], (List.append_nil _).symm, .nil⟩

/-- An event prints its text. -/
theorem handle_printed (state : TelnetState) (event : TelnetEvent) :
    (state.handle event).printed = state.printed ++ event.text := by
  cases event with
  | data => rfl
  | negotiation | subnegotiation | timedOut | noData | unknownIac | error | readError =>
    exact (List.append_nil _).symm

/-- An event leads behind the loop when the connection has failed, else to the channel. -/
theorem handle_phase (state : TelnetState) (event : TelnetEvent) :
    (event.Fails ∧ (state.handle event).phase = .left .telnetError) ∨
      (¬ event.Fails ∧ (state.handle event).phase = .receiving) := by
  cases event with
  | error => exact Or.inl ⟨Or.inl rfl, rfl⟩
  | readError => exact Or.inl ⟨Or.inr rfl, rfl⟩
  | data | negotiation | subnegotiation | timedOut | noData | unknownIac =>
    exact Or.inr ⟨by simp [TelnetEvent.Fails], rfl⟩

/-- What one more event asks for. -/
theorem requests_snoc (events : List TelnetEvent) (event : TelnetEvent) :
    (events ++ [event]).filterMap TelnetEvent.request =
      events.filterMap TelnetEvent.request ++ event.request.toList := by
  rw [List.filterMap_append]
  cases asked : event.request with
  | none => rw [List.filterMap_cons_none asked]; rfl
  | some request => rw [List.filterMap_cons_some asked]; rfl

/-- The record after an event. -/
theorem record_event {event : TelnetEvent} (record : SessionRecord events state)
    (moves : state.step (.event event) = some next) : SessionRecord (events ++ [event]) next := by
  obtain ⟨phase, same⟩ := step_event moves
  have sound := record.sound (by rw [phase]; exact LoopPhase.noConfusion)
  obtain ⟨answers, extended, refused⟩ := handle_answers state event
  rw [same]
  constructor
  · rw [handle_printed, record.printed, List.flatMap_append, List.flatMap_singleton]
  · rw [extended, requests_snoc]
    exact List.rel_append record.answers refused
  · rcases handle_phase state event with ⟨fails, left⟩ | ⟨goes, on⟩
    · exact iff_of_true left ⟨event, List.mem_append_right _ List.mem_cons_self, fails⟩
    · refine iff_of_false (by rw [on]; exact LoopPhase.noConfusion) ?_
      rintro ⟨other, member, fails⟩
      rcases List.mem_append.mp member with before | last
      · exact sound other before fails
      · exact goes (List.mem_singleton.mp last ▸ fails)
  · rcases handle_phase state event with ⟨_, left⟩ | ⟨_, on⟩
    · rw [left]
      simp
    · rw [on]
      exact LoopPhase.noConfusion

/-- The main loop never finds that the thread is gone: the stop that ends the thread is still in the
channel. -/
theorem step_hangUp_none (accounted : Accounted reads state) (soFar : ReadSoFar reads state) :
    state.step .hangUp = none := by
  cases moves : state.step .hangUp with
  | none => rfl
  | some next =>
    obtain ⟨phase, empty, through, _⟩ := step_hangUp moves
    have stops := soFar.stops through
    have waiting := sentinel_waits accounted stops through (by rw [phase]; exact LoopPhase.noConfusion)
    rw [empty] at waiting
    exact (List.not_mem_nil waiting).elim

end Moves

/-- What is known of a session after some moves. -/
structure Followed (reads : List StdinRead) (moves : List TelnetMove) (state : TelnetState) : Prop where
  /-- The buffers are accounted for. -/
  accounted : Accounted reads state
  /-- The reads are accounted for. -/
  soFar : ReadSoFar reads state
  /-- What was printed and answered goes with the events so far. -/
  record : SessionRecord (eventsOf moves) state

/-- Every move keeps what is known. -/
theorem followed_step {reads : List StdinRead} {past : List TelnetMove} {state next : TelnetState}
    {move : TelnetMove} (followed : Followed reads past state) (moves : state.step move = some next) :
    Followed reads (past ++ [move]) next := by
  refine ⟨accounted_step followed.accounted moves, readSoFar_step followed.soFar moves, ?_⟩
  have events : eventsOf (past ++ [move]) = eventsOf past ++ eventsOf [move] := List.filterMap_append
  rw [events]
  cases move with
  | stdin =>
    obtain ⟨read, rest, _, _, same⟩ := step_stdin moves
    have none : eventsOf [.stdin] = [] := rfl
    rw [none, List.append_nil, same]
    exact followed.record.keep rfl rfl Iff.rfl followed.record.connected
  | event event => exact record_event followed.record moves
  | receive =>
    have none : eventsOf [.receive] = [] := rfl
    rw [none, List.append_nil]
    exact record_receive followed.record moves
  | hangUp =>
    rw [step_hangUp_none followed.accounted followed.soFar] at moves
    contradiction

/-- In every run, in any order of the moves, the record is that of the events. -/
theorem session_record (reads : List StdinRead) (moves : List TelnetMove) (state : TelnetState)
    (run : TelnetState.run { reads } moves = some state) : SessionRecord (eventsOf moves) state := by
  rw [telnetRun_eq] at run
  have start : Followed reads [] { reads } :=
    ⟨accounted_start, ⟨[], rfl, iff_of_true rfl (by simp)⟩, record_start⟩
  exact (Machine.run_invariant (Followed reads) followed_step moves [] start run).record

/-- Data, a request and an error, in a session where nothing is typed. -/
theorem session_record_refused : SessionRecord [.data [104, 105], .negotiation .request 1, .error]
    { reads := [], phase := .left .telnetError, printed := "hi".toList, answers := [(.wont, 1)] } :=
  session_record [] [.event (.data [104, 105]), .receive, .event (.negotiation .request 1), .receive,
    .event .error] _ (by decide)

end Rcurl
