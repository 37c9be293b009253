import Rcurl.Foundation.Machine
import Rcurl.Http.Delivery

/-!
# The order of events in a call

Every call goes through its hops in one way: a request is built, goes out, is answered, and the answer is
either a redirect with a target, after which the next request is built, or the last response, which is
handled. The order is a machine of its own; `call_keeps_order` says that it accepts every call, and that
the event a call stops at decides how it ends.
-/

namespace Rcurl

open ShellWords (Text)

/-- How far a call has come. -/
inductive CallPhase where
  /-- Nothing was done. -/
  | idle
  /-- A request was built. -/
  | built (request : Request)
  /-- A request went out. -/
  | sent (transmission : Transmission)
  /-- A response came. -/
  | received (response : Response)
  /-- A response was handled. -/
  | done (response : Response)
  deriving DecidableEq

/-- An event that belongs to a phase, and the phase behind it. Only the response that stands for TLS
information comes to a request that did not go out, in a call that asks for it. -/
def CallPhase.next (wantsInfo : Bool) : CallPhase → Event → Option CallPhase
  | .idle, .built request => some (.built request)
  | .built request, .transmitted transmission =>
    if transmission.request = request ∨ transmission.request = addHost request then
      some (.sent transmission)
    else none
  | .built _, .received response =>
    if wantsInfo = true ∧ response = emptyResponse then some (.received response) else none
  | .sent _, .received response => some (.received response)
  | .received response, .built request => if response.givesTarget then some (.built request) else none
  | .received response, .handled last =>
    if last = response ∧ response.isRedirection = false then some (.done last) else none
  | _, _ => none

/-- A hop can begin. -/
def CallPhase.Ready : CallPhase → Prop
  | .idle => True
  | .received response => response.givesTarget = true
  | .built _ | .sent _ | .done _ => False

/-- A call ends by its last event: a response that was handled decides, and without one it has failed. -/
def EndsBy (world : World) (cli : Cli) (events : List Event) (last : CallPhase) (ending : Ending) :
    Prop :=
  match last with
  | .done response => ∃ past, past <+: transmittedOf events ∧
      ending = handleResponse (world past) cli response
  | _ => ∃ error, ending = Ending.failed error

/-- The events of a call are in order, at most ten requests are built, and the last event decides. -/
structure KeepsOrder (world : World) (cli : Cli) (events : List Event) (ending : Ending) : Prop where
  /-- The events are accepted, and the last decides. -/
  accepted : ∃ last, Machine.run (CallPhase.next (wantsTlsInfo cli)) .idle events = some last ∧
    EndsBy world cli events last ending
  /-- The requests are few. -/
  bounded : (builtOf events).length ≤ maxRedirects

section Hop

variable {Url : Type} {urls : UrlOps Url} {world : World} {cli : Cli} {state : HopState Url}

/-- A phase in which a hop can begin lets it build its request. -/
theorem CallPhase.Ready.build {phase : CallPhase} {wantsInfo : Bool} (ready : phase.Ready)
    (request : Request) :
    phase.next wantsInfo (.built request) = some (.built request) := by
  cases phase with
  | idle => rfl
  | received response => exact if_pos ready
  | built | sent | done => exact ready.elim

/-- A response of which the direction is a target leads on. -/
theorem givesTarget_of_follow {url target : Url} {response : Response}
    (way : direction urls url response = .follow target) : response.givesTarget = true := by
  rw [direction] at way
  rw [Response.givesTarget]
  split_ifs at way with redirects
  rw [redirects]
  cases given : MultiMap.get .location response.headers with
  | none => simp [given] at way
  | some value => rfl

/-- A response that is delivered is no redirect. -/
theorem isRedirection_of_deliver {url : Url} {response : Response}
    (way : direction urls url response = .deliver) : response.isRedirection = false := by
  rw [direction] at way
  split_ifs at way with redirects
  · split at way
    · contradiction
    · split at way
      · contradiction
      · split at way
        · contradiction
        · contradiction
  · exact Bool.eq_false_iff.mpr redirects

/-- What a hop can send: the request as it is on the wire, or nothing, and then it has no answer but the
one that stands for TLS information. -/
structure Sends (cli : Cli) (request : Request) (sent : Sent) : Prop where
  /-- The request on the wire. -/
  wire : ∀ transmission, sent.transmission = some transmission → IsWire request transmission.request
  /-- No request, no answer. -/
  unsent : sent.transmission = none → ∀ response, sent.result = .ok response →
    wantsTlsInfo cli = true ∧ response = emptyResponse

/-- What `send_request` sends. -/
theorem sendRequest_sends (hopWorld : HopWorld) (scheme : Text) (request : Request) :
    Sends cli request (sendRequest urls hopWorld cli scheme request) := by
  have does := sendUnlogged_cases urls hopWorld cli request scheme
  refine ⟨fun transmission out => does.wire out, fun unsent response answered => ?_⟩
  rw [sendRequest] at unsent answered
  cases result : (sendUnlogged urls hopWorld cli scheme request).result with
  | error error =>
    simp only [result, Except.bind] at answered
    contradiction
  | ok known =>
    simp only [result, Except.bind] at answered
    obtain ⟨_, _, same⟩ := bind_ok.mp answered
    rw [← Except.ok.inj same]
    exact does.unsent unsent result

/-- A hop up to its answer: the request is built, and goes out if it does. -/
theorem before_accepted {request : Request} {sent : Sent} {phase : CallPhase} (ready : phase.Ready)
    (sends : Sends cli request sent) :
    ∃ last, Machine.run (CallPhase.next (wantsTlsInfo cli)) phase
        (.built request :: sent.transmission.toList.map Event.transmitted) = some last ∧
      (∀ response, last ≠ .done response) ∧ ∀ response, sent.result = .ok response →
        last.next (wantsTlsInfo cli) (.received response) = some (.received response) := by
  rw [Machine.run_cons_of_step (ready.build request)]
  cases out : sent.transmission with
  | none =>
    refine ⟨.built request, rfl, fun _ => CallPhase.noConfusion, fun response answered => ?_⟩
    exact if_pos (sends.unsent out response answered)
  | some transmission =>
    refine ⟨.sent transmission, ?_, fun _ => CallPhase.noConfusion, fun _ _ => rfl⟩
    rw [Option.toList_some, List.map_singleton, Machine.run_singleton]
    exact if_pos (sends.wire transmission out)

/-- Where a round leaves the call: ready for the next hop, or at its end. -/
def Leaves (hopWorld : HopWorld) (cli : Cli) (round : HopRound Url) (last : CallPhase) : Prop :=
  match round.next with
  | .inl _ => last.Ready
  | .inr ending =>
    (∃ response, last = .done response ∧ ending = handleResponse hopWorld cli response) ∨
      (∀ response, last ≠ .done response) ∧ ∃ error, ending = Ending.failed error

/-- A finished hop is in order. -/
theorem finishHop_order {hopWorld : HopWorld} {request : Request} {sent : Sent} {phase : CallPhase}
    (ready : phase.Ready) (sends : Sends cli request sent) :
    ∃ last, Machine.run (CallPhase.next (wantsTlsInfo cli)) phase
        (finishHop urls hopWorld cli state request sent).events =
        some last ∧ Leaves hopWorld cli (finishHop urls hopWorld cli state request sent) last := by
  obtain ⟨middle, run, open_, answers⟩ := before_accepted ready sends
  rw [finishHop]
  cases result : sent.result with
  | error error => exact ⟨middle, run, Or.inr ⟨open_, error, rfl⟩⟩
  | ok response =>
    have answered := answers response result
    simp only
    cases way : direction urls state.url response with
    | refuse error =>
      refine ⟨.received response, ?_, Or.inr ⟨fun _ => CallPhase.noConfusion, error, rfl⟩⟩
      rw [Machine.run_append, run, Option.bind_some, Machine.run_singleton, answered]
    | follow target =>
      refine ⟨.received response, ?_, givesTarget_of_follow way⟩
      rw [Machine.run_append, run, Option.bind_some, Machine.run_singleton, answered]
    | deliver =>
      have handles : CallPhase.next (wantsTlsInfo cli) (.received response) (.handled response) =
          some (.done response) :=
        if_pos ⟨rfl, isRedirection_of_deliver way⟩
      refine ⟨.done response, ?_, Or.inl ⟨response, rfl, rfl⟩⟩
      rw [Machine.run_append, run, Option.bind_some, Machine.run_cons_of_step answered,
        Machine.run_singleton, handles]

/-- A hop is in order. -/
theorem hop_order (urls : UrlOps Url) (world : World) (cli : Cli) (state : HopState Url)
    {phase : CallPhase} (ready : phase.Ready) :
    ∃ last, Machine.run (CallPhase.next (wantsTlsInfo cli)) phase (hop urls world cli state).events =
        some last ∧
      Leaves (world state.past) cli (hop urls world cli state) last := by
  rcases hop_cases state with ⟨error, whole⟩ | ⟨uri, request, target, built, whole⟩
  · rw [whole]
    refine ⟨phase, rfl, Or.inr ⟨?_, error, rfl⟩⟩
    rintro response rfl
    exact ready
  · rw [whole]
    exact finishHop_order ready (sendRequest_sends _ _ _)

/-- A hop builds one request at most. -/
theorem hop_builds (state : HopState Url) :
    (builtOf (hop urls world cli state).events).length ≤ 1 := by
  rcases hop_cases state with ⟨error, whole⟩ | ⟨uri, request, target, built, whole⟩
  · rw [whole]
    exact Nat.zero_le 1
  · have before : ∀ sent : Sent, builtOf
        (.built request :: sent.transmission.toList.map Event.transmitted) = [request] := by
      intro sent
      cases sent.transmission <;> rfl
    rw [whole, finishHop]
    split
    · exact Nat.le_of_eq (congrArg List.length (before _))
    · split
      · rw [builtOf_append, before]
        exact Nat.le_refl 1
      · rw [builtOf_append, before]
        exact Nat.le_refl 1
      · rw [builtOf_append, before]
        exact Nat.le_refl 1

end Hop

/-- What holds before a round of the loop: the events so far are accepted and another hop can begin, what
went out is remembered, and every round has built one request at most. -/
structure OrderSoFar {Url : Type} (cli : Cli) (index : Nat) (past : List Event)
    (state : HopState Url) : Prop where
  /-- The events so far are accepted. -/
  ready : ∃ phase, Machine.run (CallPhase.next (wantsTlsInfo cli)) .idle past = some phase ∧ phase.Ready
  /-- What went out is remembered. -/
  remembered : state.past = transmittedOf past
  /-- The requests are few. -/
  few : (builtOf past).length ≤ index

/-- The loop is in order. -/
theorem hopsFrom_keeps_order {Url : Type} (urls : UrlOps Url) (world : World) (cli : Cli) (url : Url) :
    KeepsOrder world cli (hopsFrom urls world cli maxRedirects 0 { url, past := [] }).1
      (hopsFrom urls world cli maxRedirects 0 { url, past := [] }).2 := by
  have start : OrderSoFar cli 0 [] { url, past := [] : HopState Url } :=
    ⟨⟨.idle, rfl, trivial⟩, rfl, Nat.le_refl 0⟩
  refine BoundedLoop.run_rule (OrderSoFar cli) (KeepsOrder world cli) ?_ ?_ ?_ maxRedirects
    (Nat.zero_add _) start
  · rintro index past state next _ ⟨⟨phase, run, ready⟩, remembered, few⟩ goes
    obtain ⟨last, on, leaves⟩ := hop_order urls world cli state ready
    obtain ⟨sent, shown, later⟩ := @hop_transmitted Url urls world cli state
    rw [Leaves, goes] at leaves
    refine ⟨⟨last, ?_, leaves⟩, ?_, ?_⟩
    · rw [Machine.run_append, run, Option.bind_some, on]
    · rw [later next goes, transmittedOf_append, shown, remembered]
    · rw [builtOf_append, List.length_append]
      exact Nat.add_le_add few (hop_builds state)
  · rintro index past state ending within ⟨⟨phase, run, ready⟩, remembered, few⟩ ends
    obtain ⟨last, on, leaves⟩ := hop_order urls world cli state ready
    rw [Leaves, ends] at leaves
    refine ⟨⟨last, ?_, ?_⟩, ?_⟩
    · rw [Machine.run_append, run, Option.bind_some, on]
    · rcases leaves with ⟨response, rfl, same⟩ | ⟨open_, failed⟩
      · refine ⟨state.past, ?_, same⟩
        rw [remembered, transmittedOf_append]
        exact List.prefix_append _ _
      · cases last with
        | done response => exact (open_ response rfl).elim
        | idle | built | sent | received => exact failed
    · rw [builtOf_append, List.length_append]
      exact Nat.le_trans (Nat.add_le_add few (hop_builds state)) within
  · rintro past state ⟨⟨phase, run, ready⟩, _, few⟩
    refine ⟨⟨phase, run, ?_⟩, few⟩
    cases phase with
    | done response => exact ready.elim
    | idle | built | sent | received => exact ⟨_, rfl⟩

/-- A call that is over has handled a response. -/
theorem handled_of_over {events : List Event} {response : Response}
    (run : Machine.run (CallPhase.next (wantsTlsInfo cli)) .idle events = some (.done response)) :
    .handled response ∈ events := by
  rcases List.eq_nil_or_concat events with rfl | ⟨front, event, rfl⟩
  · rw [Machine.run_nil, Option.some.injEq] at run
    contradiction
  · rw [List.concat_eq_append, Machine.run_append] at run
    obtain ⟨middle, _, last⟩ := Option.bind_eq_some_iff.mp run
    rw [Machine.run_singleton] at last
    rw [List.concat_eq_append, List.mem_append, List.mem_singleton]
    right
    cases middle <;> cases event <;> simp only [CallPhase.next, Option.ite_none_right_eq_some,
      Option.some.injEq, reduceCtorEq, and_false, CallPhase.done.injEq] at last
    rw [last.2]

/-- A call fails, or handles a response by which it ends. -/
theorem call_ends {Url : Type} (urls : UrlOps Url) (world : World) (cli : Cli) :
    (∃ error, (httpRequestWithRedirects urls world cli).2 = Ending.failed error) ∨
      ∃ past response, .handled response ∈ (httpRequestWithRedirects urls world cli).1 ∧
        (httpRequestWithRedirects urls world cli).2 = handleResponse (world past) cli response := by
  rw [httpRequestWithRedirects]
  cases cli.url with
  | none => exact Or.inl ⟨_, rfl⟩
  | some text =>
    simp only
    cases urls.parse text with
    | none => exact Or.inl ⟨_, rfl⟩
    | some url =>
      obtain ⟨last, run, ends⟩ := (hopsFrom_keeps_order urls world cli url).accepted
      cases last with
      | done response =>
        obtain ⟨past, _, same⟩ := ends
        exact Or.inr ⟨past, response, handled_of_over run, same⟩
      | idle | built | sent | received => exact Or.inl ends

/-- Every call is in order, builds ten requests at most, and ends by its last event. -/
theorem call_keeps_order {Url : Type} (urls : UrlOps Url) (world : World) (cli : Cli) :
    KeepsOrder world cli (httpRequestWithRedirects urls world cli).1
      (httpRequestWithRedirects urls world cli).2 := by
  rw [httpRequestWithRedirects]
  cases cli.url with
  | none => exact ⟨⟨.idle, rfl, _, rfl⟩, Nat.zero_le _⟩
  | some text =>
    simp only
    cases urls.parse text with
    | none => exact ⟨⟨.idle, rfl, _, rfl⟩, Nat.zero_le _⟩
    | some url => exact hopsFrom_keeps_order urls world cli url

end Rcurl
