import Rcurl.Foundation.BoundedLoop
import Rcurl.Http.HandleResponse

/-!
# Following redirects

`http_request_with_redirects`: a loop of hops, each of which builds the request again for its URL,
sends it, and goes on to the target of a redirect or hands the response over. A run is its events in
order and its ending. The world may answer each hop by all that was sent before.
-/

namespace Rcurl

open ShellWords (Text)

/-- `MAX_REDIRECTS`. -/
def maxRedirects : Nat := 10

/-- What happens during a run. -/
inductive Event where
  /-- A request was built. -/
  | built (request : Request)
  /-- A request went out. -/
  | transmitted (transmission : Transmission)
  /-- A response came back. -/
  | received (response : Response)
  /-- A response was passed to `handle_response`. -/
  | handled (response : Response)
  deriving DecidableEq, Repr

/-- The requests that went out, in order. -/
def transmittedOf (events : List Event) : List Transmission :=
  events.filterMap fun event => match event with
    | .transmitted transmission => some transmission
    | .built _ | .received _ | .handled _ => none

/-- Where the loop stands. -/
structure HopState (Url : Type) where
  /-- Where the next request goes. -/
  url : Url
  /-- What went out before, in order. -/
  past : List Transmission

/-- What is given from outside, hop by hop. -/
abbrev World := List Transmission → HopWorld

/-- What a response tells the loop to do. -/
inductive Direction (Url : Type) where
  /-- It is no redirect. -/
  | deliver
  /-- It is a redirect with a target. -/
  | follow (target : Url)
  /-- It is a redirect that cannot be followed. -/
  | refuse (error : HttpError)
  deriving DecidableEq

/-- The direction a response gives at a URL. -/
def direction {Url : Type} (urls : UrlOps Url) (url : Url) (response : Response) : Direction Url :=
  if response.isRedirection then
    match MultiMap.get .location response.headers with
    | none => .refuse .missingLocation
    | some value =>
      match value.toStr with
      | none => .refuse .illegible
      | some text =>
        match urls.join url text with
        | none => .refuse .join
        | some target => .follow target
  else .deliver

/-- A round of the loop. -/
abbrev HopRound (Url : Type) := BoundedLoop.Round (HopState Url) Event Ending

/-- The scheme of a URI, `http` when it has none. -/
def Uri.schemeOrHttp (uri : Uri) : Text := uri.scheme.getD "http".toList

/-- A hop after its exchange. -/
def finishHop {Url : Type} (urls : UrlOps Url) (world : HopWorld) (cli : Cli) (state : HopState Url)
    (request : Request) (sent : Sent) : HopRound Url :=
  let before := Event.built request :: sent.transmission.toList.map Event.transmitted
  match sent.result with
  | .error error => { events := before, next := .inr (Ending.failed error) }
  | .ok response =>
    match direction urls state.url response with
    | .refuse error =>
      { events := before ++ [.received response], next := .inr (Ending.failed error) }
    | .follow target =>
      { events := before ++ [.received response],
        next := .inl { url := target, past := state.past ++ sent.transmission.toList } }
    | .deliver =>
      { events := before ++ [.received response, .handled response],
        next := .inr (handleResponse world cli response) }

/-- One hop. -/
def hop {Url : Type} (urls : UrlOps Url) (world : World) (cli : Cli) (state : HopState Url) :
    HopRound Url :=
  match urls.toUri state.url with
  | none => { events := [], next := .inr (Ending.failed .uri) }
  | some uri =>
    match buildRequest (world state.past).build cli uri with
    | .error error => { events := [], next := .inr (Ending.failed error) }
    | .ok request =>
      finishHop urls (world state.past) cli state request
        (sendRequest urls (world state.past) cli uri.schemeOrHttp request)

/-- The loop, with so many rounds left. -/
abbrev hopsFrom {Url : Type} (urls : UrlOps Url) (world : World) (cli : Cli)
    (rounds index : Nat) (state : HopState Url) : List Event × Ending :=
  BoundedLoop.run (fun _ => hop urls world cli) (Ending.failed .tooManyRedirects) rounds index state

/-- `http_request_with_redirects`. -/
def httpRequestWithRedirects {Url : Type} (urls : UrlOps Url) (world : World) (cli : Cli) :
    List Event × Ending :=
  match cli.url with
  | none => ([], Ending.failed .urlRequired)
  | some text =>
    match urls.parse text with
    | none => ([], Ending.failed .initialUrl)
    | some url => hopsFrom urls world cli maxRedirects 0 { url, past := [] }

/-- The call is the loop from the initial URL. -/
theorem httpRequestWithRedirects_eq {Url : Type} {urls : UrlOps Url} {world : World} {cli : Cli}
    {text : Text} {url : Url} (given : cli.url = some text) (parsed : urls.parse text = some url) :
    httpRequestWithRedirects urls world cli =
      hopsFrom urls world cli maxRedirects 0 { url, past := [] } := by
  rw [httpRequestWithRedirects, given]
  simp only
  rw [parsed]

@[simp] theorem transmittedOf_append (first second : List Event) :
    transmittedOf (first ++ second) = transmittedOf first ++ transmittedOf second :=
  List.filterMap_append

/-- What went out is what the events say went out. -/
theorem mem_transmittedOf {transmission : Transmission} {events : List Event} :
    transmission ∈ transmittedOf events ↔ .transmitted transmission ∈ events := by
  rw [transmittedOf, List.mem_filterMap]
  constructor
  · rintro ⟨event, member, same⟩
    cases event with
    | transmitted known =>
      rw [← Option.some.inj same]
      exact member
    | built request => contradiction
    | received response => contradiction
    | handled response => contradiction
  · exact fun member => ⟨_, member, rfl⟩

/-- The events before the response show what went out. -/
@[simp] theorem transmittedOf_before (request : Request) (transmission : Option Transmission) :
    transmittedOf (.built request :: transmission.toList.map Event.transmitted) =
      transmission.toList := by
  cases transmission <;> rfl

section Hops

variable {Url : Type} {urls : UrlOps Url} {world : World} {cli : Cli} {state : HopState Url}
variable {request : Request} {sent : Sent}

/-- A finished hop shows what went out. -/
theorem transmittedOf_finishHop (hopWorld : HopWorld) :
    transmittedOf (finishHop urls hopWorld cli state request sent).events =
      sent.transmission.toList := by
  rw [finishHop]
  cases sent.result with
  | error error => exact transmittedOf_before request sent.transmission
  | ok response =>
    simp only
    cases direction urls state.url response with
    | refuse error => simp [transmittedOf]
    | follow target => simp [transmittedOf]
    | deliver => simp [transmittedOf]

/-- A finished hop that goes on follows a redirect. -/
theorem finishHop_follows {hopWorld : HopWorld} {next : HopState Url}
    (goes : (finishHop urls hopWorld cli state request sent).next = .inl next) :
    ∃ response target, sent.result = .ok response ∧
      direction urls state.url response = .follow target ∧
        next = { url := target, past := state.past ++ sent.transmission.toList } := by
  rw [finishHop] at goes
  cases result : sent.result with
  | error error => simp [result] at goes
  | ok response =>
    simp only [result] at goes
    cases way : direction urls state.url response with
    | refuse error => simp [way] at goes
    | deliver => simp [way] at goes
    | follow target =>
      simp only [way, Sum.inl.injEq] at goes
      exact ⟨response, target, rfl, way, goes.symm⟩

/-- A hop fails at once, or builds its request and finishes. -/
theorem hop_cases (state : HopState Url) :
    (∃ error, hop urls world cli state = { events := [], next := .inr (Ending.failed error) }) ∨
      ∃ uri request, urls.toUri state.url = some uri ∧
        buildRequest (world state.past).build cli uri = .ok request ∧
          hop urls world cli state = finishHop urls (world state.past) cli state request
            (sendRequest urls (world state.past) cli uri.schemeOrHttp request) := by
  rw [hop]
  cases target : urls.toUri state.url with
  | none => exact .inl ⟨_, rfl⟩
  | some uri =>
    cases built : buildRequest (world state.past).build cli uri with
    | error error => exact .inl ⟨error, by simp [built]⟩
    | ok request => exact .inr ⟨uri, request, rfl, built, by simp [built]⟩

/-- A request that a hop transmits was built by it, and has at most hyper's `Host` beside. -/
theorem hop_transmits {transmission : Transmission}
    (shown : .transmitted transmission ∈ (hop urls world cli state).events) :
    ∃ uri request, urls.toUri state.url = some uri ∧
      assembleRequest (world state.past).build cli uri = .ok request ∧
        IsWire request transmission.request := by
  have out : transmission ∈ transmittedOf (hop urls world cli state).events :=
    List.mem_filterMap.mpr ⟨_, shown, rfl⟩
  rcases hop_cases state with ⟨error, whole⟩ | ⟨uri, request, target, built, whole⟩
  · rw [whole] at out
    contradiction
  · rw [whole, transmittedOf_finishHop, Option.mem_toList] at out
    have sends := sendUnlogged_cases urls (world state.past) cli request uri.schemeOrHttp
    exact ⟨uri, request, target, buildRequest_ok built, sends.wire out⟩

/-- The loop gets to a state after so many hops. -/
def Reached (urls : UrlOps Url) (world : World) (cli : Cli) (count : Nat) (state : HopState Url) :
    Prop :=
  ∃ text url events, cli.url = some text ∧ urls.parse text = some url ∧
    BoundedLoop.Continues (fun _ => hop urls world cli) 0 { url, past := [] } count events state

/-- What hops that go on have put on the wire is what the state remembers. -/
theorem continues_past {index count : Nat} {events : List Event} {last : HopState Url}
    (chain : BoundedLoop.Continues (fun _ => hop urls world cli) index state count events last) :
    last.past = state.past ++ transmittedOf events := by
  induction chain with
  | done index state => exact (List.append_nil _).symm
  | @step index state next last count events goes later ih =>
    have here : next.past = state.past ++ transmittedOf (hop urls world cli state).events := by
      rcases hop_cases state with ⟨error, whole⟩ | ⟨uri, request, target, built, whole⟩
      · rw [whole] at goes
        contradiction
      · rw [whole] at goes ⊢
        obtain ⟨response, target, answered, way, same⟩ := finishHop_follows goes
        rw [transmittedOf_finishHop, same]
    rw [ih, here, transmittedOf_append, List.append_assoc]

/-- A run that gets to a state is what went on before, then the rest of the loop. -/
theorem Reached.run_eq {count : Nat} (reached : Reached urls world cli count state)
    (bound : count ≤ maxRedirects) :
    ∃ events, transmittedOf events = state.past ∧ httpRequestWithRedirects urls world cli =
      (events ++ (hopsFrom urls world cli (maxRedirects - count) count state).1,
        (hopsFrom urls world cli (maxRedirects - count) count state).2) := by
  obtain ⟨text, url, events, given, parsed, chain⟩ := reached
  have past := continues_past chain
  have rest : hopsFrom urls world cli (count + (maxRedirects - count)) 0 { url, past := [] } = _ :=
    BoundedLoop.run_continues chain (maxRedirects - count)
  rw [Nat.add_sub_cancel' bound, Nat.zero_add] at rest
  refine ⟨events, ?_, ?_⟩
  · rw [past, List.nil_append]
  · rw [httpRequestWithRedirects_eq given parsed, rest]

/-- A call transmits what the hops that it gets to transmit. -/
theorem transmitted_iff {transmission : Transmission} :
    transmission ∈ transmittedOf (httpRequestWithRedirects urls world cli).1 ↔
      ∃ count < maxRedirects, ∃ state, Reached urls world cli count state ∧
        transmission ∈ transmittedOf (hop urls world cli state).events := by
  simp only [mem_transmittedOf]
  constructor
  · intro shown
    rw [httpRequestWithRedirects] at shown
    cases given : cli.url with
    | none =>
      rw [given] at shown
      contradiction
    | some text =>
      cases parsed : urls.parse text with
      | none => simp [given, parsed] at shown
      | some url =>
        simp only [given, parsed] at shown
        obtain ⟨count, bound, events, last, chain, member⟩ := BoundedLoop.mem_run_iff.mp shown
        exact ⟨count, bound, last, ⟨text, url, events, given, parsed, chain⟩, member⟩
  · rintro ⟨count, bound, state, ⟨text, url, events, given, parsed, chain⟩, member⟩
    rw [httpRequestWithRedirects_eq given parsed]
    exact BoundedLoop.mem_run_iff.mpr ⟨count, bound, events, state, chain, member⟩

/-- A hop puts at most one request on the wire, which the next state remembers. -/
theorem hop_transmitted (state : HopState Url) : ∃ sent : Option Transmission,
    transmittedOf (hop urls world cli state).events = sent.toList ∧
      ∀ next, (hop urls world cli state).next = .inl next →
        next.past = state.past ++ sent.toList := by
  rcases hop_cases state with ⟨error, whole⟩ | ⟨uri, request, target, built, whole⟩
  · rw [whole]
    exact ⟨none, rfl, nofun⟩
  · rw [whole]
    refine ⟨_, transmittedOf_finishHop _, ?_⟩
    intro next goes
    obtain ⟨response, target, answered, way, same⟩ := finishHop_follows goes
    rw [same]

/-- What is true of every request that a hop can transmit after what was sent before is true of every
request of the loop, in its place. -/
theorem hopsFrom_transmits {Holds : List Transmission → Transmission → Prop}
    (hops : ∀ past uri request transmission,
      assembleRequest (world past).build cli uri = .ok request →
        IsWire request transmission.request → Holds past transmission) (rounds : Nat) :
    ∀ (index : Nat) (state : HopState Url) (before : List Transmission) (transmission : Transmission)
      (after : List Transmission),
      transmittedOf (hopsFrom urls world cli rounds index state).1 =
        before ++ transmission :: after → Holds (state.past ++ before) transmission := by
  induction rounds with
  | zero =>
    intro index state before transmission after sent
    have member : transmission ∈ transmittedOf (hopsFrom urls world cli 0 index state).1 := by
      rw [sent]
      exact List.mem_append_right before List.mem_cons_self
    contradiction
  | succ rounds ih =>
    intro index state before transmission after sent
    obtain ⟨first, shown, remembered⟩ := hop_transmitted state
    have here : first = some transmission → Holds state.past transmission := by
      intro same
      have member : transmission ∈ transmittedOf (hop urls world cli state).events := by
        rw [shown, same]
        exact List.mem_singleton.mpr rfl
      obtain ⟨uri, request, _, assembled, wire⟩ := hop_transmits (mem_transmittedOf.mp member)
      exact hops state.past uri request transmission assembled wire
    cases next : (hop urls world cli state).next with
    | inr ending =>
      rw [hopsFrom, BoundedLoop.run_return next, shown] at sent
      have filled : ∀ front : List Transmission, front ++ transmission :: after ≠ [] :=
        fun front => List.append_ne_nil_of_right_ne_nil front (List.cons_ne_nil transmission after)
      cases first with
      | none => exact (filled before sent.symm).elim
      | some known =>
        cases before with
        | nil =>
          rw [List.append_nil]
          exact here (congrArg some (List.cons.inj sent).1)
        | cons head before => exact (filled before (List.cons.inj sent).2.symm).elim
    | inl later =>
      rw [hopsFrom, BoundedLoop.run_next next, transmittedOf_append, shown] at sent
      have past := remembered later next
      cases first with
      | none =>
        have rest := ih (index + 1) later before transmission after sent
        rw [past, Option.toList_none, List.append_nil] at rest
        exact rest
      | some known =>
        cases before with
        | nil =>
          rw [List.append_nil]
          exact here (congrArg some (List.cons.inj sent).1)
        | cons head before =>
          have rest := ih (index + 1) later before transmission after (List.cons.inj sent).2
          rw [past, List.append_assoc] at rest
          rw [← (List.cons.inj sent).1]
          exact rest

/-- What is true of every request that hops can transmit, after what was sent before, is true of every
request of a call. -/
theorem call_transmits_after {Holds : List Transmission → Transmission → Prop}
    (hops : ∀ past uri request transmission,
      assembleRequest (world past).build cli uri = .ok request →
        IsWire request transmission.request → Holds past transmission)
    {before after : List Transmission} {transmission : Transmission}
    (sent : transmittedOf (httpRequestWithRedirects urls world cli).1 =
      before ++ transmission :: after) : Holds before transmission := by
  have member : transmission ∈ transmittedOf (httpRequestWithRedirects urls world cli).1 := by
    rw [sent]
    exact List.mem_append_right before List.mem_cons_self
  obtain ⟨count, _, state, ⟨text, url, events, given, parsed, _⟩, _⟩ := transmitted_iff.mp member
  rw [httpRequestWithRedirects_eq given parsed] at sent
  exact hopsFrom_transmits hops maxRedirects 0 { url, past := [] } before transmission after sent

/-- What is true of every request that hops can transmit is true of all that a call transmits. -/
theorem call_transmits {Holds : Transmission → Prop}
    (hops : ∀ past uri request transmission,
      assembleRequest (world past).build cli uri = .ok request →
        IsWire request transmission.request → Holds transmission) :
    ∀ transmission ∈ transmittedOf (httpRequestWithRedirects urls world cli).1,
      Holds transmission := by
  intro transmission member
  obtain ⟨before, after, sent⟩ := List.append_of_mem member
  have holds : (fun _ : List Transmission => Holds) before transmission :=
    call_transmits_after hops sent
  exact holds

end Hops

/-! ## A plain call -/

/-- `http://h/`. -/
def plainUri : Uri where
  scheme := some "http".toList
  authority := some { host := "h".toList, port := none, visible := by decide }
  path := "/".toList
  query := none

/-- `rcurl http://h/`. -/
def plainCli : Cli := { url := some "http://h/".toList }

/-- The request it builds, with its default headers. -/
def plainRequest : Request where
  method := "GET".toList
  uri := plainUri
  version := .http11
  headers :=
    [(.accept, { bytes := "*/*".toList.map (UInt8.ofNat ·.toNat), valid := by decide }),
      (.userAgent, { bytes := defaultUserAgent.map (UInt8.ofNat ·.toNat), valid := by decide })]
  body := .bytes []

/-- The plain call builds it for any target. -/
theorem plainRequest_built (exchange : Transmission → Exchange) (uri : Uri) :
    buildRequest (calmWorld exchange).build plainCli uri = .ok { plainRequest with uri } := rfl

end Rcurl
