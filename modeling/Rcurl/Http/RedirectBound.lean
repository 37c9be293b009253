import Rcurl.Http.Redirects

/-!
# How many redirects are followed

The loop counts requests, the constant and its error text count redirects. A server that answers
with a chain of redirects and then a response is served up to nine of them, `redirectBound_iff`: at
ten the last target is computed and not requested, and the response behind it is never handled.
-/

namespace Rcurl

open ShellWords (Text)

/-- The responses passed to `handle_response`. -/
def handledOf (events : List Event) : List Response :=
  events.filterMap fun event => match event with
    | .handled response => some response
    | .built _ | .transmitted _ | .received _ => none

/-- The requests that were built, one to a hop. -/
def builtOf (events : List Event) : List Request :=
  events.filterMap fun event => match event with
    | .built request => some request
    | .handled _ | .transmitted _ | .received _ => none

/-- At a hop the request is built and sent, no step fails, and a response comes back. -/
structure Fetches {Url : Type} (urls : UrlOps Url) (world : World) (cli : Cli)
    (state : HopState Url) (request : Request) (transmission : Option Transmission)
    (response : Response) : Prop where
  /-- The request is built, and sending it gives the response. -/
  sent : ∃ uri, urls.toUri state.url = some uri ∧
    buildRequest (world state.past).build cli uri = .ok request ∧
      sendRequest urls (world state.past) cli uri.schemeOrHttp request =
        { transmission, result := .ok response }

/-- A chain of so many redirects with valid targets, from one hop to another. -/
inductive RedirectChain {Url : Type} (urls : UrlOps Url) (world : World) (cli : Cli) :
    HopState Url → Nat → HopState Url → Prop
  /-- No redirect. -/
  | none (state : HopState Url) : RedirectChain urls world cli state 0 state
  /-- A redirect, then the others from its target. -/
  | follow {state last : HopState Url} {request : Request} {transmission : Option Transmission}
    {response : Response} {target : Url} {count : Nat}
    (fetched : Fetches urls world cli state request transmission response)
    (redirect : direction urls state.url response = .follow target)
    (later : RedirectChain urls world cli
      { url := target, past := state.past ++ transmission.toList } count last) :
    RedirectChain urls world cli state (count + 1) last

/-- What the constant promises for a chain that ends in a response: up to `MAX_REDIRECTS` redirects
are followed and the response, and only it, is handled; beyond them the run ends in the error, with
nothing handled and no more redirects followed. -/
def RedirectBound {Url : Type} (world : World) (cli : Cli) (count : Nat) (last : HopState Url)
    (response : Response) (run : List Event × Ending) : Prop :=
  (count ≤ maxRedirects →
    handledOf run.1 = [response] ∧ run.2 = handleResponse (world last.past) cli response) ∧
  (maxRedirects < count →
    handledOf run.1 = [] ∧ run.2 = Ending.failed .tooManyRedirects ∧
      (builtOf run.1).length ≤ maxRedirects + 1)

@[simp] theorem handledOf_append (first second : List Event) :
    handledOf (first ++ second) = handledOf first ++ handledOf second := List.filterMap_append

@[simp] theorem builtOf_append (first second : List Event) :
    builtOf (first ++ second) = builtOf first ++ builtOf second := List.filterMap_append

section Chain

variable {Url : Type} {urls : UrlOps Url} {world : World} {cli : Cli}
variable {state last : HopState Url} {request : Request} {transmission : Option Transmission}
variable {response : Response} {count : Nat}

/-- A hop that fetches is the hop after its exchange. -/
theorem Fetches.hop_eq (fetched : Fetches urls world cli state request transmission response) :
    hop urls world cli state =
      finishHop urls (world state.past) cli state request
        { transmission, result := .ok response } := by
  obtain ⟨uri, target, built, answered⟩ := fetched.sent
  rw [hop, target]
  simp only
  rw [built]
  simp only
  rw [answered]

/-- A redirect makes the hop go on to its target. -/
theorem hop_follows {target : Url}
    (fetched : Fetches urls world cli state request transmission response)
    (redirect : direction urls state.url response = .follow target) :
    (hop urls world cli state).next =
      .inl { url := target, past := state.past ++ transmission.toList } := by
  rw [fetched.hop_eq, finishHop]
  simp only [redirect]

/-- An exchange after which the hop goes on leaves the built request and nothing handled. -/
theorem finishHop_next {hopWorld : HopWorld} {sent : Sent} {next : HopState Url}
    (goes : (finishHop urls hopWorld cli state request sent).next = .inl next) :
    handledOf (finishHop urls hopWorld cli state request sent).events = [] ∧
      (builtOf (finishHop urls hopWorld cli state request sent).events).length = 1 := by
  obtain ⟨response, target, answered, way, _⟩ := finishHop_follows goes
  rw [finishHop, answered]
  simp only [way]
  cases sent.transmission <;> exact ⟨rfl, rfl⟩

/-- A hop that goes on builds one request and hands nothing over. -/
theorem hop_next {next : HopState Url} (goes : (hop urls world cli state).next = .inl next) :
    handledOf (hop urls world cli state).events = [] ∧
      (builtOf (hop urls world cli state).events).length = 1 := by
  rcases hop_cases state with ⟨error, whole⟩ | ⟨uri, request, target, built, whole⟩
  · rw [whole] at goes
    contradiction
  · rw [whole] at goes ⊢
    exact finishHop_next goes

/-- Hops that go on build one request each and hand nothing over. -/
theorem continues_events {index : Nat} {events : List Event}
    (chain : BoundedLoop.Continues (fun _ => hop urls world cli) index state count events last) :
    handledOf events = [] ∧ (builtOf events).length = count := by
  induction chain with
  | done index state => exact ⟨rfl, rfl⟩
  | step goes later ih =>
    have here := hop_next goes
    constructor
    · rw [handledOf_append, here.1, ih.1, List.append_nil]
    · rw [builtOf_append, List.length_append, here.2, ih.2, Nat.add_comm]

/-- A chain of redirects is a row of hops that go on. -/
theorem RedirectChain.continues (chain : RedirectChain urls world cli state count last) :
    ∀ index, ∃ events,
      BoundedLoop.Continues (fun _ => hop urls world cli) index state count events last := by
  induction chain with
  | none state => exact fun index => ⟨[], .done index state⟩
  | follow fetched redirect later ih =>
    intro index
    obtain ⟨events, rest⟩ := ih (index + 1)
    exact ⟨_, .step (hop_follows fetched redirect) rest⟩

/-- The hop that gets the last response hands it over and returns. -/
theorem hop_delivers (fetched : Fetches urls world cli state request transmission response)
    (final : direction urls state.url response = .deliver) :
    handledOf (hop urls world cli state).events = [response] ∧
      (hop urls world cli state).next = .inr (handleResponse (world state.past) cli response) := by
  rw [fetched.hop_eq, finishHop]
  simp only [final]
  refine ⟨?_, trivial⟩
  cases transmission <;> rfl

/-- After a shorter chain than the constant, a hop that returns ends the run, and only what it hands
over is handled. -/
theorem run_returns {start : HopState Url} {ending : Ending}
    (chain : RedirectChain urls world cli start count last)
    (returns : (hop urls world cli last).next = .inr ending) (short : count < maxRedirects) :
    let run := hopsFrom urls world cli maxRedirects 0 start
    handledOf run.1 = handledOf (hop urls world cli last).events ∧ run.2 = ending := by
  intro run
  obtain ⟨events, rounds⟩ := chain.continues 0
  obtain ⟨spare, left⟩ : ∃ spare, maxRedirects = count + (spare + 1) :=
    ⟨maxRedirects - count - 1, by omega⟩
  have whole : run = (events ++ (hop urls world cli last).events, ending) := by
    simp only [run]
    rw [left, hopsFrom, BoundedLoop.run_continues rounds, BoundedLoop.run_return returns]
  rw [whole]
  constructor
  · rw [handledOf_append, (continues_events rounds).1, List.nil_append]
  · rfl

/-- A shorter chain than the constant is served: its last response is handled. -/
theorem run_served {start : HopState Url} (chain : RedirectChain urls world cli start count last)
    (fetched : Fetches urls world cli last request transmission response)
    (final : direction urls last.url response = .deliver) (short : count < maxRedirects) :
    let run := hopsFrom urls world cli maxRedirects 0 start
    handledOf run.1 = [response] ∧ run.2 = handleResponse (world last.past) cli response := by
  intro run
  obtain ⟨delivered, returns⟩ := hop_delivers fetched final
  obtain ⟨only, ending⟩ := run_returns chain returns short
  exact ⟨by rw [only, delivered], ending⟩

/-- A chain as long as the constant, or longer, is not: every round of the loop goes on. -/
theorem run_unserved {start : HopState Url} (chain : RedirectChain urls world cli start count last)
    (long : maxRedirects ≤ count) :
    let run := hopsFrom urls world cli maxRedirects 0 start
    handledOf run.1 = [] ∧ run.2 = Ending.failed .tooManyRedirects ∧
      (builtOf run.1).length = maxRedirects := by
  intro run
  obtain ⟨events, rounds⟩ := chain.continues 0
  obtain ⟨front, middle, hops, whole⟩ : ∃ front middle,
      BoundedLoop.Continues (fun _ => hop urls world cli) 0 start maxRedirects front middle ∧
        run = (front, Ending.failed .tooManyRedirects) :=
    BoundedLoop.run_exhausts rounds long
  have quiet := continues_events hops
  rw [whole]
  exact ⟨quiet.1, rfl, quiet.2⟩

/-- A chain exactly as long as the constant breaks the promise. -/
theorem redirectBound_fails {text : Text} {url : Url} (given : cli.url = some text)
    (parsed : urls.parse text = some url)
    (chain : RedirectChain urls world cli { url, past := [] } maxRedirects last) :
    ¬ RedirectBound world cli maxRedirects last response
      (httpRequestWithRedirects urls world cli) := by
  intro bound
  have unserved := run_unserved chain (Nat.le_refl maxRedirects)
  rw [← httpRequestWithRedirects_eq given parsed] at unserved
  have served := (bound.1 (Nat.le_refl maxRedirects)).1
  rw [unserved.1] at served
  contradiction

/-- The bound holds of a chain unless it is exactly as long as the constant. -/
theorem redirectBound_iff {text : Text} {url : Url} (given : cli.url = some text)
    (parsed : urls.parse text = some url)
    (chain : RedirectChain urls world cli { url, past := [] } count last)
    (fetched : Fetches urls world cli last request transmission response)
    (final : direction urls last.url response = .deliver) :
    RedirectBound world cli count last response (httpRequestWithRedirects urls world cli) ↔
      count ≠ maxRedirects := by
  constructor
  · intro bound exact_length
    rw [exact_length] at bound chain
    exact redirectBound_fails given parsed chain bound
  · intro apart
    rw [httpRequestWithRedirects_eq given parsed]
    constructor
    · intro short
      exact run_served chain fetched final (Nat.lt_of_le_of_ne short apart)
    · intro long
      obtain ⟨unhandled, ending, built⟩ := run_unserved chain (Nat.le_of_lt long)
      exact ⟨unhandled, ending, by rw [built]; exact Nat.le_succ maxRedirects⟩

end Chain

/-! ## A server that counts down -/

/-- The URL with so many redirects behind it. -/
def countdownText (left : Nat) : Text := "http://h/".toList ++ List.replicate left 'a'

/-- The same URL, parsed. -/
def countdownUri (left : Nat) : Uri := { plainUri with path := '/' :: List.replicate left 'a' }

/-- What the server answers: a redirect to the path that is shorter by one, at the end a page. -/
def countdownResponse (uri : Uri) : Response :=
  match uri.path with
  | '/' :: _ :: rest =>
    { version := .http11, status := 302, body := []
      headers := (HeaderValue.fromStr (countdownText rest.length)).toList.map fun value =>
        (HeaderName.location, value) }
  | _ => emptyResponse

/-- The server. -/
def countdown : World := fun _ =>
  calmWorld fun transmission => .answered (countdownResponse transmission.request.uri)

/-- The call that starts so many redirects away. -/
def countdownCli (left : Nat) : Cli := { plainCli with url := some (countdownText left) }

/-- Its targets can be joined, up to ten of them. -/
theorem countdown_direction : ∀ left < 10,
    direction plainUrls (countdownUri (left + 1)) (countdownResponse (countdownUri (left + 1))) =
      .follow (countdownUri left) := by decide

/-- A hop of the countdown. -/
theorem countdown_fetches (start left : Nat) (past : List Transmission) :
    Fetches plainUrls countdown (countdownCli start) { url := countdownUri left, past }
      { plainRequest with uri := countdownUri left }
      (some { route := .direct, request := addHost { plainRequest with uri := countdownUri left } })
      (countdownResponse (countdownUri left)) where
  sent := ⟨countdownUri left, rfl, plainRequest_built _ _, rfl⟩

/-- The countdown redirects as often as it says. -/
theorem countdown_chain (start : Nat) : ∀ left ≤ 10, ∀ past, ∃ last,
    RedirectChain plainUrls countdown (countdownCli start) { url := countdownUri left, past } left
      { url := countdownUri 0, past := last } := by
  intro left
  induction left with
  | zero => exact fun _ past => ⟨past, .none _⟩
  | succ left ih =>
    intro bound past
    have fetched := countdown_fetches start (left + 1) past
    have redirect := countdown_direction left bound
    obtain ⟨last, later⟩ := ih (Nat.le_of_succ_le bound) _
    exact ⟨last, .follow fetched redirect later⟩

/-- Ten redirects lead to a response that is never handled. -/
theorem redirectBound_ten : ¬ ∀ (cli : Cli) (text : Text) (url : Uri) (world : World) (count : Nat)
    (last : HopState Uri) (request : Request) (transmission : Option Transmission)
    (response : Response),
    cli.url = some text → plainUrls.parse text = some url →
    RedirectChain plainUrls world cli { url, past := [] } count last →
    Fetches plainUrls world cli last request transmission response →
    direction plainUrls last.url response = .deliver →
      RedirectBound world cli count last response (httpRequestWithRedirects plainUrls world cli) := by
  intro bound
  obtain ⟨past, chain⟩ := countdown_chain 10 10 (Nat.le_refl 10) []
  have fetched := countdown_fetches 10 0 past
  have parsed : plainUrls.parse (countdownText 10) = some (countdownUri 10) := by decide
  exact redirectBound_fails rfl parsed chain
    (bound (countdownCli 10) _ _ countdown 10 _ _ _ _ rfl parsed chain fetched rfl)

/-- Nine redirects are followed. -/
theorem redirectBound_nine : ∃ last request transmission response,
    RedirectChain plainUrls countdown (countdownCli 9) { url := countdownUri 9, past := [] } 9 last ∧
      Fetches plainUrls countdown (countdownCli 9) last request transmission response ∧
        (RedirectBound countdown (countdownCli 9) 9 last response
            (httpRequestWithRedirects plainUrls countdown (countdownCli 9)) ↔ 9 ≠ maxRedirects) := by
  obtain ⟨past, chain⟩ := countdown_chain 9 9 (by omega) []
  have fetched := countdown_fetches 9 0 past
  have parsed : plainUrls.parse (countdownText 9) = some (countdownUri 9) := by decide
  exact ⟨_, _, _, _, chain, fetched, redirectBound_iff rfl parsed chain fetched rfl⟩

end Rcurl
