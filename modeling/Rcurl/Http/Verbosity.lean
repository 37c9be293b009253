import Rcurl.Http.Redirects

/-!
# Two runs that differ in the log level

`-v` is documented to set the log level. The log blocks read header values as text with `?`, so that
a header that is legal but not visible ASCII ends a call that would succeed without `-v`.
`runs_agree_iff` says exactly when two runs that differ in `verbosity` alone agree: when the log is on
or off in both, or when every such header is met where the call would fail anyway, with nothing more
sent.
-/

namespace Rcurl

open ShellWords (Text)

/-- The call ends with an error. -/
def Ending.fails (ending : Ending) : Bool :=
  match ending.outcome with
  | .ok _ => false
  | .error _ => true

/-- Both succeed with the same response, file and printed body, or both fail. -/
def SameEnding (first second : Ending) : Prop :=
  match first.outcome, second.outcome with
  | .ok one, .ok other => one = other ∧ first.file = second.file ∧ first.printed = second.printed
  | .error _, .error _ => True
  | .ok _, .error _ | .error _, .ok _ => False

/-- Two runs send the same requests and end the same way. -/
def RunsAgree (first second : List Event × Ending) : Prop :=
  transmittedOf first.1 = transmittedOf second.1 ∧ SameEnding first.2 second.2

/-- A run that sends nothing and fails. -/
def Silent (run : List Event × Ending) : Prop := transmittedOf run.1 = [] ∧ run.2.fails = true

/-- The options at another log level. -/
def Cli.atVerbosity (cli : Cli) (verbosity : UInt8) : Cli := { cli with verbosity }

section Condition

variable {Url : Type} (urls : UrlOps Url) (world : World) (cli : Cli)

/-- What a hop does apart from its log: the request it builds, and what comes of sending it. -/
def attempt (state : HopState Url) : Option (Request × Sent) :=
  match urls.toUri state.url with
  | none => none
  | some uri =>
    match assembleRequest (world state.past).build cli uri with
    | .error _ => none
    | .ok request => some (request, sendUnlogged urls (world state.past) cli uri.schemeOrHttp request)

/-- A hop that fails with nothing sent: its URL or its request is refused, or its exchange is not
reached, or it asks for TLS information that cannot be delivered. -/
def HopStops (state : HopState Url) : Prop :=
  ∀ request sent, attempt urls world cli state = some (request, sent) →
    sent.transmission = none ∧ ∀ response, sent.result = .ok response →
      (handleResponse (world state.past) cli response).fails = true

/-- A response that ends the call with an error and nothing more sent, with so many rounds left. -/
def ResponseStops (rounds : Nat) (state : HopState Url) (sent : List Transmission)
    (response : Response) : Prop :=
  match direction urls state.url response with
  | .refuse _ => True
  | .deliver => (handleResponse (world state.past) cli response).fails = true
  | .follow target =>
    rounds = 0 ∨ HopStops urls world cli { url := target, past := state.past ++ sent }

/-- Headers that the log of a hop cannot read, when it is on. -/
def TripsLog (state : HopState Url) (headers : HeaderMap) : Prop :=
  (world state.past).build.debugLogs = true ∧ HeaderMap.legible headers = false

/-- The log of a hop can be on or off: what it cannot read is met where the call fails anyway. -/
structure HarmlessLog (rounds : Nat) (state : HopState Url) : Prop where
  /-- When the request cannot be logged, the hop fails anyway. -/
  request : ∀ request sent, attempt urls world cli state = some (request, sent) →
    TripsLog world state request.headers → HopStops urls world cli state
  /-- When the response cannot be, what it leads to fails anyway. -/
  response : ∀ request sent response, attempt urls world cli state = some (request, sent) →
    sent.result = .ok response → TripsLog world state response.headers →
      ResponseStops urls world cli rounds state sent.transmission.toList response

/-- The hops that the redirects lead to when nothing is logged: from one, after so many, another. -/
inductive Leads : HopState Url → Nat → HopState Url → Prop
  /-- No redirect. -/
  | here (state : HopState Url) : Leads state 0 state
  /-- A redirect, then the others from its target. -/
  | follow {state last : HopState Url} {request : Request} {sent : Sent} {response : Response}
    {target : Url} {count : Nat} (tried : attempt urls world cli state = some (request, sent))
    (answered : sent.result = .ok response)
    (redirect : direction urls state.url response = .follow target)
    (later : Leads { url := target, past := state.past ++ sent.transmission.toList } count last) :
    Leads state (count + 1) last

/-- The log is harmless at every hop within the bound. -/
def HarmlessLogs (rounds : Nat) (state : HopState Url) : Prop :=
  ∀ count left last, count + left + 1 = rounds → Leads urls world cli state count last →
    HarmlessLog urls world cli left last

end Condition

/-! ## What a hop does -/

section Hops

variable {Url : Type} {urls : UrlOps Url} {world : World} {cli : Cli} {state : HopState Url}
variable {request : Request} {sent : Sent}

/-- A hop without an attempt fails at once. -/
theorem hop_none (missing : attempt urls world cli state = none) :
    ∃ error, hop urls world cli state = { events := [], next := .inr (Ending.failed error) } := by
  rw [attempt] at missing
  rw [hop]
  cases target : urls.toUri state.url with
  | none => exact ⟨_, rfl⟩
  | some uri =>
    simp only [target] at missing ⊢
    cases assembled : assembleRequest (world state.past).build cli uri with
    | error error =>
      have built : buildRequest (world state.past).build cli uri = .error error := by
        rw [buildRequest, assembled]
        rfl
      rw [built]
      exact ⟨_, rfl⟩
    | ok request => simp [assembled] at missing

/-- An attempt builds its request and sends it. -/
theorem attempt_eq_some (tried : attempt urls world cli state = some (request, sent)) :
    ∃ uri, urls.toUri state.url = some uri ∧
      assembleRequest (world state.past).build cli uri = .ok request ∧
        sendUnlogged urls (world state.past) cli uri.schemeOrHttp request = sent := by
  rw [attempt] at tried
  cases target : urls.toUri state.url with
  | none => simp [target] at tried
  | some uri =>
    simp only [target] at tried
    cases assembled : assembleRequest (world state.past).build cli uri with
    | error error => simp [assembled] at tried
    | ok known =>
      simp only [assembled, Option.some.injEq, Prod.mk.injEq] at tried
      have same := tried.1
      have sends := tried.2
      rw [same] at assembled sends
      exact ⟨uri, rfl, assembled, sends⟩

/-- A hop with an attempt whose request passes the log goes on to finish, with the log of the
response. -/
theorem hop_passes (tried : attempt urls world cli state = some (request, sent))
    (passes : logHeaders (world state.past).build cli request.headers = .ok ()) :
    hop urls world cli state = finishHop urls (world state.past) cli state request
      { sent with result := sent.result.bind (logResponse (world state.past) cli) } := by
  obtain ⟨uri, target, assembled, sends⟩ := attempt_eq_some tried
  have built : buildRequest (world state.past).build cli uri = .ok request := by
    rw [buildRequest, assembled]
    exact bind_ok.mpr ⟨request, rfl, bind_ok.mpr ⟨(), passes, rfl⟩⟩
  rw [hop, target]
  simp only
  rw [built, ← sends]
  rfl

/-- A hop with an attempt whose request trips the log fails. -/
theorem hop_trips {error : HttpError} (tried : attempt urls world cli state = some (request, sent))
    (trips : logHeaders (world state.past).build cli request.headers = .error error) :
    hop urls world cli state = { events := [], next := .inr (Ending.failed error) } := by
  obtain ⟨uri, target, assembled, _⟩ := attempt_eq_some tried
  have built : buildRequest (world state.past).build cli uri = .error error := by
    rw [buildRequest, assembled]
    show (logHeaders _ _ _ >>= _) = _
    rw [trips]
    rfl
  rw [hop, target]
  simp only
  rw [built]

/-- Below `-v` nothing is logged. -/
theorem logHeaders_quiet (build : BuildWorld) (headers : HeaderMap) :
    logHeaders build (cli.atVerbosity 0) headers = .ok () := by
  have off : ¬ (cli.atVerbosity 0).verbosity ≥ 1 := by
    show ¬ (0 : UInt8) ≥ 1
    decide
  rw [logHeaders, if_neg fun on => off on.1]

/-- From `-v` on, what the log cannot read is an error. -/
theorem logHeaders_trips {verbosity : UInt8} {headers : HeaderMap} (loud : 1 ≤ verbosity)
    (trips : TripsLog world state headers) :
    logHeaders (world state.past).build (cli.atVerbosity verbosity) headers = .error .illegible := by
  rw [logHeaders, if_pos ⟨loud, trips⟩]

/-- What the log can read, or does not have to, is none. -/
theorem logHeaders_passes {headers : HeaderMap} (passes : ¬ TripsLog world state headers) :
    logHeaders (world state.past).build cli headers = .ok () := by
  rw [logHeaders, if_neg fun on => passes on.2]

/-- The response comes through the log when it is not read. -/
theorem logResponse_passes {response : Response} {world : HopWorld}
    (passes : logHeaders world.build cli response.headers = .ok ()) :
    logResponse world cli response = .ok response := by
  rw [logResponse, passes]
  rfl

/-- Without `-v` a hop with an attempt finishes it. -/
theorem hop_quiet (tried : attempt urls world cli state = some (request, sent)) :
    hop urls world (cli.atVerbosity 0) state =
      finishHop urls (world state.past) cli state request sent := by
  have goes : attempt urls world (cli.atVerbosity 0) state = some (request, sent) := tried
  have unread : sent.result.bind (logResponse (world state.past) (cli.atVerbosity 0)) =
      sent.result := by
    cases sent.result with
    | error error => rfl
    | ok response => exact logResponse_passes (logHeaders_quiet _ _)
  rw [hop_passes goes (logHeaders_quiet _ _), unread]
  rfl

/-- With `-v` a hop finishes its attempt when the log can read all. -/
theorem hop_loud (verbosity : UInt8)
    (tried : attempt urls world cli state = some (request, sent))
    (passes : ¬ TripsLog world state request.headers)
    (read : ∀ response, sent.result = .ok response → ¬ TripsLog world state response.headers) :
    hop urls world (cli.atVerbosity verbosity) state =
      finishHop urls (world state.past) cli state request sent := by
  have goes : attempt urls world (cli.atVerbosity verbosity) state = some (request, sent) := tried
  have unread : sent.result.bind (logResponse (world state.past) (cli.atVerbosity verbosity)) =
      sent.result := by
    cases result : sent.result with
    | error error => rfl
    | ok response => exact logResponse_passes (logHeaders_passes (read response result))
  rw [hop_passes goes (logHeaders_passes passes), unread]
  rfl

/-- With `-v` a response that the log cannot read ends the call behind its request. -/
theorem hop_loud_response {verbosity : UInt8} {response : Response} (loud : 1 ≤ verbosity)
    (tried : attempt urls world cli state = some (request, sent))
    (passes : ¬ TripsLog world state request.headers) (answered : sent.result = .ok response)
    (trips : TripsLog world state response.headers) :
    hop urls world (cli.atVerbosity verbosity) state =
      { events := .built request :: sent.transmission.toList.map Event.transmitted,
        next := .inr (Ending.failed .illegible) } := by
  have goes : attempt urls world (cli.atVerbosity verbosity) state = some (request, sent) := tried
  have refused : sent.result.bind (logResponse (world state.past) (cli.atVerbosity verbosity)) =
      .error .illegible := by
    rw [answered]
    show logResponse _ _ _ = _
    rw [logResponse, logHeaders_trips loud trips]
    rfl
  rw [hop_passes goes (logHeaders_passes passes), refused]
  rfl

/-- What an attempt does. -/
theorem attempt_sends (tried : attempt urls world cli state = some (request, sent)) :
    SendsOneOf (world state.past) cli request sent := by
  obtain ⟨uri, _, _, sends⟩ := attempt_eq_some tried
  rw [← sends]
  exact sendUnlogged_cases urls (world state.past) cli request uri.schemeOrHttp

/-- A hop that stops gets no response that the log cannot read. -/
theorem HopStops.reads {response : Response} (stops : HopStops urls world cli state)
    (tried : attempt urls world cli state = some (request, sent))
    (answered : sent.result = .ok response) : response = emptyResponse :=
  ((attempt_sends tried).unsent (stops request sent tried).1 answered).2

/-- The response to no request trips no log. -/
theorem emptyResponse_passes : ¬ TripsLog world state emptyResponse.headers :=
  fun trips => Bool.noConfusion trips.2

end Hops

/-! ## Two runs -/

/-- Calls that end the same way both fail or both succeed. -/
theorem SameEnding.fails {first second : Ending} (same : SameEnding first second) :
    first.fails = second.fails := by
  rw [SameEnding] at same
  rw [Ending.fails, Ending.fails]
  cases one : first.outcome <;> cases other : second.outcome <;> simp_all

/-- A run agrees with itself. -/
theorem RunsAgree.refl (run : List Event × Ending) : RunsAgree run run := by
  refine ⟨rfl, ?_⟩
  rw [SameEnding]
  cases run.2.outcome with
  | ok response => exact ⟨rfl, rfl, rfl⟩
  | error error => trivial

/-- Agreement is symmetric. -/
theorem RunsAgree.symm {first second : List Event × Ending} (agree : RunsAgree first second) :
    RunsAgree second first := by
  refine ⟨agree.1.symm, ?_⟩
  have ends := agree.2
  rw [SameEnding] at ends ⊢
  cases one : first.2.outcome <;> cases other : second.2.outcome <;> simp_all

/-- A run agrees with one that failed when it sends the same and fails. -/
theorem runsAgree_failed {run : List Event × Ending} {events : List Event} {error : HttpError} :
    RunsAgree run (events, Ending.failed error) ↔
      transmittedOf run.1 = transmittedOf events ∧ run.2.fails = true := by
  rw [RunsAgree, SameEnding, Ending.failed, Ending.fails]
  cases run.2.outcome <;> simp

section Runs

variable {Url : Type} {urls : UrlOps Url} {world : World} {cli : Cli} {state next : HopState Url}
variable {rounds index : Nat} {verbosity : UInt8}

/-- A hop that returns is the whole run. -/
theorem hopsFrom_return {events : List Event} {ending : Ending}
    (whole : hop urls world cli state = { events, next := .inr ending }) :
    hopsFrom urls world cli (rounds + 1) index state = (events, ending) := by
  rw [hopsFrom, BoundedLoop.run_return (congrArg (·.next) whole), whole]

/-- A hop that goes on: the run is silent when the hop sends nothing and the rest is silent. -/
theorem silent_next (goes : (hop urls world cli state).next = .inl next) :
    Silent (hopsFrom urls world cli (rounds + 1) index state) ↔
      transmittedOf (hop urls world cli state).events = [] ∧
        Silent (hopsFrom urls world cli rounds (index + 1) next) := by
  rw [hopsFrom, BoundedLoop.run_next goes, Silent, Silent, transmittedOf_append,
    List.append_eq_nil_iff, and_assoc]

/-- A hop that returns. -/
theorem silent_return {ending : Ending} (returns : (hop urls world cli state).next = .inr ending) :
    Silent (hopsFrom urls world cli (rounds + 1) index state) ↔
      transmittedOf (hop urls world cli state).events = [] ∧ ending.fails = true := by
  rw [hopsFrom, BoundedLoop.run_return returns, Silent]

/-- Stopping, for a hop with an attempt. -/
theorem hopStops_iff {request : Request} {sent : Sent}
    (tried : attempt urls world cli state = some (request, sent)) :
    HopStops urls world cli state ↔ sent.transmission = none ∧ ∀ response,
      sent.result = .ok response → (handleResponse (world state.past) cli response).fails = true := by
  constructor
  · exact fun stops => stops request sent tried
  · intro stops known given same
    obtain ⟨rfl, rfl⟩ : request = known ∧ sent = given := by simpa [tried] using same
    exact stops

/-- Without `-v` a hop that sends nothing returns, with an error or the TLS information. -/
theorem unsent_returns {request : Request} {sent : Sent}
    (tried : attempt urls world cli state = some (request, sent))
    (unsent : sent.transmission = none) :
    ∃ ending, (hop urls world (cli.atVerbosity 0) state).next = .inr ending ∧
      (ending.fails = true ↔ ∀ response, sent.result = .ok response →
        (handleResponse (world state.past) cli response).fails = true) := by
  have whole := hop_quiet tried
  cases result : sent.result with
  | error error =>
    refine ⟨Ending.failed error, ?_, ?_⟩
    · rw [whole, finishHop, result]
    · simp [Ending.failed, Ending.fails]
  | ok response =>
    have given := ((attempt_sends tried).unsent unsent result).2
    refine ⟨handleResponse (world state.past) cli response, ?_, ?_⟩
    · rw [whole, finishHop, result, given]
      rfl
    · simp

/-- Without `-v` a hop with an attempt shows what went out. -/
theorem transmittedOf_hop {request : Request} {sent : Sent}
    (tried : attempt urls world cli state = some (request, sent)) :
    transmittedOf (hop urls world (cli.atVerbosity 0) state).events = sent.transmission.toList := by
  rw [hop_quiet tried, transmittedOf_finishHop]

/-- The log of a hop with an attempt. -/
theorem harmlessLog_iff {request : Request} {sent : Sent}
    (tried : attempt urls world cli state = some (request, sent)) :
    HarmlessLog urls world cli rounds state ↔
      (TripsLog world state request.headers → HopStops urls world cli state) ∧
        ∀ response, sent.result = .ok response → TripsLog world state response.headers →
          ResponseStops urls world cli rounds state sent.transmission.toList response := by
  constructor
  · exact fun harmless => ⟨harmless.request request sent tried,
      fun response => harmless.response request sent response tried⟩
  · rintro ⟨first, second⟩
    constructor
    · intro known given same
      obtain ⟨rfl, rfl⟩ : request = known ∧ sent = given := by simpa [tried] using same
      exact first
    · intro known given response same
      obtain ⟨rfl, rfl⟩ : request = known ∧ sent = given := by simpa [tried] using same
      exact second response

/-- A run without `-v` sends nothing and fails exactly when its first hop does. -/
theorem silent_iff : Silent (hopsFrom urls world (cli.atVerbosity 0) (rounds + 1) index state) ↔
    HopStops urls world cli state := by
  cases tried : attempt urls world cli state with
  | none =>
    have none_quiet : attempt urls world (cli.atVerbosity 0) state = none := tried
    obtain ⟨error, whole⟩ := hop_none none_quiet
    rw [silent_return (congrArg (·.next) whole), whole, HopStops]
    simp [tried, transmittedOf, Ending.failed, Ending.fails]
  | some pair =>
    obtain ⟨request, sent⟩ := pair
    have shown := transmittedOf_hop tried
    rw [hopStops_iff tried]
    cases out : sent.transmission with
    | some transmission =>
      -- something went out, wherever the hop goes
      have sends : transmittedOf (hop urls world (cli.atVerbosity 0) state).events ≠ [] := by
        rw [shown, out]
        exact List.cons_ne_nil _ _
      cases goes : (hop urls world (cli.atVerbosity 0) state).next with
      | inl next => simp [silent_next goes, sends]
      | inr ending => simp [silent_return goes, sends]
    | none =>
      obtain ⟨ending, returns, fails⟩ := unsent_returns tried out
      rw [silent_return returns, shown, out, fails]
      simp

/-- What is left of a run is silent when no round is left or the next hop stops. -/
theorem silent_rest : Silent (hopsFrom urls world (cli.atVerbosity 0) rounds index state) ↔
    rounds = 0 ∨ HopStops urls world cli state := by
  cases rounds with
  | zero => exact ⟨fun _ => .inl rfl, fun _ => ⟨rfl, rfl⟩⟩
  | succ rounds => simp [silent_iff]

/-- Runs whose first hops are the same agree when the runs from the next hop do. -/
theorem agree_same {one other : Cli}
    (same : hop urls world one state = hop urls world other state) :
    RunsAgree (hopsFrom urls world one (rounds + 1) index state)
        (hopsFrom urls world other (rounds + 1) index state) ↔
      ∀ next, (hop urls world one state).next = .inl next →
        RunsAgree (hopsFrom urls world one rounds (index + 1) next)
          (hopsFrom urls world other rounds (index + 1) next) := by
  cases goes : (hop urls world one state).next with
  | inl next =>
    have also := goes
    rw [same] at also
    rw [hopsFrom, hopsFrom, BoundedLoop.run_next goes, BoundedLoop.run_next also, same, RunsAgree]
    simp [RunsAgree]
  | inr ending =>
    have also := goes
    rw [same] at also
    rw [hopsFrom, hopsFrom, BoundedLoop.run_return goes, BoundedLoop.run_return also, same]
    simp [RunsAgree.refl]

/-- A hop that stops does so with `-v` as well. -/
theorem agree_stops (loud : 1 ≤ verbosity) (stops : HopStops urls world cli state) :
    RunsAgree (hopsFrom urls world (cli.atVerbosity 0) (rounds + 1) index state)
      (hopsFrom urls world (cli.atVerbosity verbosity) (rounds + 1) index state) := by
  have silent : Silent (hopsFrom urls world (cli.atVerbosity 0) (rounds + 1) index state) :=
    silent_iff.mpr stops
  have fails : ∀ error, hop urls world (cli.atVerbosity verbosity) state =
      { events := [], next := .inr (Ending.failed error) } →
        RunsAgree (hopsFrom urls world (cli.atVerbosity 0) (rounds + 1) index state)
          (hopsFrom urls world (cli.atVerbosity verbosity) (rounds + 1) index state) := by
    intro error whole
    rw [hopsFrom_return whole]
    exact runsAgree_failed.mpr silent
  cases tried : attempt urls world cli state with
  | none =>
    have none_loud : attempt urls world (cli.atVerbosity verbosity) state = none := tried
    obtain ⟨error, whole⟩ := hop_none none_loud
    exact fails error whole
  | some pair =>
    obtain ⟨request, sent⟩ := pair
    by_cases trips : TripsLog world state request.headers
    · exact fails .illegible (hop_trips tried (logHeaders_trips loud trips))
    · have read : ∀ response, sent.result = .ok response →
          ¬ TripsLog world state response.headers := by
        intro response answered
        rw [stops.reads tried answered]
        exact emptyResponse_passes
      have same := (hop_quiet tried).trans (hop_loud verbosity tried trips read).symm
      rw [agree_same same]
      intro next goes
      obtain ⟨ending, returns, _⟩ := unsent_returns tried (stops request sent tried).1
      rw [returns] at goes
      contradiction

/-- What is left of a run that sends nothing and fails does so with `-v` as well. -/
theorem agree_rest (loud : 1 ≤ verbosity) (stops : rounds = 0 ∨ HopStops urls world cli state) :
    RunsAgree (hopsFrom urls world (cli.atVerbosity 0) rounds index state)
      (hopsFrom urls world (cli.atVerbosity verbosity) rounds index state) := by
  cases rounds with
  | zero => exact RunsAgree.refl _
  | succ rounds =>
    rcases stops with none_left | stops
    · contradiction
    · exact agree_stops loud stops

/-- A request that the log cannot read: the runs agree when the hop stops. -/
theorem agree_request {request : Request} {sent : Sent} (loud : 1 ≤ verbosity)
    (tried : attempt urls world cli state = some (request, sent))
    (trips : TripsLog world state request.headers) :
    RunsAgree (hopsFrom urls world (cli.atVerbosity 0) (rounds + 1) index state)
        (hopsFrom urls world (cli.atVerbosity verbosity) (rounds + 1) index state) ↔
      HopStops urls world cli state := by
  have goes : attempt urls world (cli.atVerbosity verbosity) state = some (request, sent) := tried
  rw [hopsFrom_return (hop_trips goes (logHeaders_trips loud trips)), runsAgree_failed]
  exact silent_iff

/-- A response that the log cannot read: the runs agree when it ends the call with an error. -/
theorem agree_response {request : Request} {sent : Sent} {response : Response} (loud : 1 ≤ verbosity)
    (tried : attempt urls world cli state = some (request, sent))
    (passes : ¬ TripsLog world state request.headers) (answered : sent.result = .ok response)
    (trips : TripsLog world state response.headers) :
    RunsAgree (hopsFrom urls world (cli.atVerbosity 0) (rounds + 1) index state)
        (hopsFrom urls world (cli.atVerbosity verbosity) (rounds + 1) index state) ↔
      ResponseStops urls world cli rounds state sent.transmission.toList response := by
  have shown := transmittedOf_hop tried
  have whole := hop_quiet tried
  rw [hopsFrom_return (hop_loud_response loud tried passes answered trips), runsAgree_failed,
    transmittedOf_before, ResponseStops]
  rw [finishHop, answered] at whole
  cases way : direction urls state.url response with
  | refuse error =>
    simp only [way] at whole
    rw [whole] at shown
    rw [hopsFrom_return whole]
    simp only [shown, Ending.failed, Ending.fails, and_self]
  | deliver =>
    simp only [way] at whole
    rw [whole] at shown
    rw [hopsFrom_return whole]
    simp only [shown, true_and]
  | follow target =>
    simp only [way] at whole
    rw [hopsFrom, BoundedLoop.run_next (congrArg (·.next) whole), transmittedOf_append, shown,
      List.append_right_eq_self]
    exact silent_rest

/-- One hop: the two runs agree when its log is harmless and the runs behind it agree. -/
theorem agree_step (loud : 1 ≤ verbosity) :
    RunsAgree (hopsFrom urls world (cli.atVerbosity 0) (rounds + 1) index state)
        (hopsFrom urls world (cli.atVerbosity verbosity) (rounds + 1) index state) ↔
      HarmlessLog urls world cli rounds state ∧
        ∀ next, (hop urls world (cli.atVerbosity 0) state).next = .inl next →
          RunsAgree (hopsFrom urls world (cli.atVerbosity 0) rounds (index + 1) next)
            (hopsFrom urls world (cli.atVerbosity verbosity) rounds (index + 1) next) := by
  cases tried : attempt urls world cli state with
  | none =>
    have none_quiet : attempt urls world (cli.atVerbosity 0) state = none := tried
    obtain ⟨error, whole⟩ := hop_none none_quiet
    have missing : ∀ request sent, attempt urls world cli state ≠ some (request, sent) := by
      intro request sent same
      rw [tried] at same
      contradiction
    have stops : HopStops urls world cli state :=
      fun request sent same => (missing request sent same).elim
    have harmless : HarmlessLog urls world cli rounds state :=
      ⟨fun request sent same => (missing request sent same).elim,
        fun request sent _ same => (missing request sent same).elim⟩
    simp [harmless, whole, agree_stops loud stops]
  | some pair =>
    obtain ⟨request, sent⟩ := pair
    rw [harmlessLog_iff tried]
    by_cases trips : TripsLog world state request.headers
    · -- with `-v` the request is not sent
      rw [agree_request loud tried trips]
      constructor
      · intro stops
        refine ⟨⟨fun _ => stops, ?_⟩, ?_⟩
        · intro response answered unread
          rw [stops.reads tried answered] at unread
          exact (emptyResponse_passes unread).elim
        · intro next goes
          obtain ⟨ending, returns, _⟩ := unsent_returns tried (stops request sent tried).1
          rw [returns] at goes
          contradiction
      · exact fun both => both.1.1 trips
    · by_cases read : ∀ response, sent.result = .ok response →
          ¬ TripsLog world state response.headers
      · -- nothing is met that the log cannot read
        have same := (hop_quiet tried).trans (hop_loud verbosity tried trips read).symm
        rw [agree_same same]
        exact ⟨fun agree => ⟨⟨fun on => (trips on).elim,
          fun response answered on => (read response answered on).elim⟩, agree⟩, fun both => both.2⟩
      · -- with `-v` the response is not handled
        push Not at read
        obtain ⟨response, answered, unread⟩ := read
        rw [agree_response loud tried trips answered unread]
        constructor
        · intro stops
          refine ⟨⟨fun on => (trips on).elim, ?_⟩, ?_⟩
          · intro known given _
            rw [answered] at given
            rw [← Except.ok.inj given]
            exact stops
          · intro next goes
            rw [hop_quiet tried] at goes
            obtain ⟨known, target, given, way, rfl⟩ := finishHop_follows goes
            rw [answered] at given
            rw [← Except.ok.inj given] at way
            rw [ResponseStops, way] at stops
            exact agree_rest loud stops
        · exact fun both => both.1.2 response answered unread

/-- Harmless logs, hop by hop. -/
theorem harmlessLogs_succ : HarmlessLogs urls world cli (rounds + 1) state ↔
    HarmlessLog urls world cli rounds state ∧
      ∀ next, (hop urls world (cli.atVerbosity 0) state).next = .inl next →
        HarmlessLogs urls world cli rounds next := by
  constructor
  · intro harmless
    refine ⟨harmless 0 rounds state (by omega) (.here state), ?_⟩
    intro next goes count left last bound leads
    cases tried : attempt urls world cli state with
    | none =>
      have none_quiet : attempt urls world (cli.atVerbosity 0) state = none := tried
      obtain ⟨error, whole⟩ := hop_none none_quiet
      rw [whole] at goes
      contradiction
    | some pair =>
      obtain ⟨request, sent⟩ := pair
      rw [hop_quiet tried] at goes
      obtain ⟨response, target, answered, way, rfl⟩ := finishHop_follows goes
      exact harmless (count + 1) left last (by omega) (.follow tried answered way leads)
  · rintro ⟨here, later⟩ count left last bound leads
    cases leads with
    | here => exact (by omega : left = rounds) ▸ here
    | @follow _ _ request sent response target count tried answered way leads =>
      have goes : (hop urls world (cli.atVerbosity 0) state).next =
          .inl { url := target, past := state.past ++ sent.transmission.toList } := by
        rw [hop_quiet tried, finishHop, answered]
        simp only [way]
      exact later _ goes count left last (by omega) leads

/-- A run: with and without `-v` it agrees exactly when the logs on its way are harmless. -/
theorem agree_iff (loud : 1 ≤ verbosity) :
    ∀ rounds index state,
      RunsAgree (hopsFrom urls world (cli.atVerbosity 0) rounds index state)
          (hopsFrom urls world (cli.atVerbosity verbosity) rounds index state) ↔
        HarmlessLogs urls world cli rounds state := by
  intro rounds
  induction rounds with
  | zero =>
    intro index state
    refine iff_of_true (RunsAgree.refl _) ?_
    intro count left last bound
    omega
  | succ rounds ih =>
    intro index state
    rw [agree_step loud, harmlessLogs_succ]
    simp only [ih]

/-- The log is on or off in both. -/
theorem hop_sameLog {first second : UInt8} (same : 1 ≤ first ↔ 1 ≤ second) :
    hop urls world (cli.atVerbosity first) = hop urls world (cli.atVerbosity second) := by
  have logs : ∀ build headers, logHeaders build (cli.atVerbosity first) headers =
      logHeaders build (cli.atVerbosity second) headers := by
    intro build headers
    simp only [logHeaders, Cli.atVerbosity, ge_iff_le, same]
  have builds : ∀ build uri, buildRequest build (cli.atVerbosity first) uri =
      buildRequest build (cli.atVerbosity second) uri := by
    intro build uri
    simp only [buildRequest, logs]
    rfl
  have sends : ∀ hopWorld scheme request,
      sendRequest urls hopWorld (cli.atVerbosity first) scheme request =
        sendRequest urls hopWorld (cli.atVerbosity second) scheme request := by
    intro hopWorld scheme request
    have reads : logResponse hopWorld (cli.atVerbosity first) =
        logResponse hopWorld (cli.atVerbosity second) := by
      funext response
      simp only [logResponse, logs]
    simp only [sendRequest, reads]
    rfl
  funext state
  simp only [hop, builds, sends]
  rfl

end Runs

/-- The log is harmless on the way from the initial URL: at each of the hops that the redirects lead
to, the headers are visible ASCII, or they are met where the call fails anyway with nothing more
sent. -/
def LogHarmless {Url : Type} (urls : UrlOps Url) (world : World) (cli : Cli) : Prop :=
  ∀ text url, cli.url = some text → urls.parse text = some url →
    HarmlessLogs urls world cli maxRedirects { url, past := [] }

section Calls

variable {Url : Type} {urls : UrlOps Url} {world : World} {cli : Cli}

/-- Calls whose log is on or off in both are the same. -/
theorem call_sameLog {first second : UInt8} (same : 1 ≤ first ↔ 1 ≤ second) :
    httpRequestWithRedirects urls world (cli.atVerbosity first) =
      httpRequestWithRedirects urls world (cli.atVerbosity second) := by
  simp only [httpRequestWithRedirects, hopsFrom, hop_sameLog same]
  rfl

/-- A call without `-v` and one with it agree exactly when the log is harmless. -/
theorem call_agrees_iff {verbosity : UInt8} (loud : 1 ≤ verbosity) :
    RunsAgree (httpRequestWithRedirects urls world (cli.atVerbosity 0))
        (httpRequestWithRedirects urls world (cli.atVerbosity verbosity)) ↔
      LogHarmless urls world cli := by
  cases given : cli.url with
  | none =>
    have missing : ∀ verbosity, httpRequestWithRedirects urls world (cli.atVerbosity verbosity) =
        ([], Ending.failed .urlRequired) := by
      intro verbosity
      have none_given : (cli.atVerbosity verbosity).url = none := given
      rw [httpRequestWithRedirects, none_given]
    rw [missing, missing]
    refine iff_of_true (RunsAgree.refl _) ?_
    intro text url known
    rw [given] at known
    contradiction
  | some text =>
    cases parsed : urls.parse text with
    | none =>
      have refused : ∀ verbosity, httpRequestWithRedirects urls world (cli.atVerbosity verbosity) =
          ([], Ending.failed .initialUrl) := by
        intro verbosity
        have some_given : (cli.atVerbosity verbosity).url = some text := given
        rw [httpRequestWithRedirects, some_given]
        simp only
        rw [parsed]
      rw [refused, refused]
      refine iff_of_true (RunsAgree.refl _) ?_
      intro known url same reads
      rw [← Option.some.inj (given.symm.trans same), parsed] at reads
      contradiction
    | some url =>
      have some_given : ∀ verbosity, (cli.atVerbosity verbosity).url = some text := fun _ => given
      rw [httpRequestWithRedirects_eq (some_given 0) parsed,
        httpRequestWithRedirects_eq (some_given verbosity) parsed, agree_iff loud]
      constructor
      · intro harmless known other same reads
        rw [← Option.some.inj (given.symm.trans same), parsed] at reads
        rw [← Option.some.inj reads]
        exact harmless
      · exact fun harmless => harmless text url given parsed

/-- Two runs that differ in the log level agree exactly when the log is on or off in both, or is
harmless. -/
theorem runs_agree_iff (urls : UrlOps Url) (world : World) (cli : Cli) (first second : UInt8) :
    RunsAgree (httpRequestWithRedirects urls world (cli.atVerbosity first))
        (httpRequestWithRedirects urls world (cli.atVerbosity second)) ↔
      (1 ≤ first ↔ 1 ≤ second) ∨ LogHarmless urls world cli := by
  by_cases same : 1 ≤ first ↔ 1 ≤ second
  · rw [call_sameLog same]
    exact iff_of_true (RunsAgree.refl _) (.inl same)
  · rw [or_iff_right same]
    have quiet : ∀ verbosity : UInt8, ¬ 1 ≤ verbosity → (1 ≤ verbosity ↔ (1 : UInt8) ≤ 0) :=
      fun verbosity off => iff_of_false off (by decide)
    by_cases loud : 1 ≤ first
    · have off : ¬ 1 ≤ second := fun on => same (iff_of_true loud on)
      rw [call_sameLog (quiet second off), ← call_agrees_iff loud]
      exact ⟨RunsAgree.symm, RunsAgree.symm⟩
    · have on : 1 ≤ second := by
        by_contra off
        exact same (iff_of_false loud off)
      rw [call_sameLog (quiet first loud), call_agrees_iff on]

end Calls

/-! ## A header that is no ASCII -/

/-- A page with a header in Latin-1. -/
def latinResponse : Response :=
  { emptyResponse with headers := [(.contentType, { bytes := [116, 233], valid := by decide })] }

/-- The call of that page succeeds, and fails with `-v`. -/
theorem runs_disagree : ¬ ∀ (world : World) (cli : Cli) (first second : UInt8),
    RunsAgree (httpRequestWithRedirects plainUrls world (cli.atVerbosity first))
      (httpRequestWithRedirects plainUrls world (cli.atVerbosity second)) := by
  intro agree
  have ends := (agree (fun _ => calmWorld fun _ => .answered latinResponse) plainCli 0 1).2.fails
  have quiet : (httpRequestWithRedirects plainUrls
      (fun _ => calmWorld fun _ => .answered latinResponse) (plainCli.atVerbosity 0)).2.fails =
        false := by decide
  have loud : (httpRequestWithRedirects plainUrls
      (fun _ => calmWorld fun _ => .answered latinResponse) (plainCli.atVerbosity 1)).2.fails =
        true := by decide
  rw [quiet, loud] at ends
  contradiction

end Rcurl
