import Rcurl.Http.RedirectBound

/-!
# Which responses are delivered

The loop delivers every response that is no redirection. A redirection without a `Location` header is
refused by a check of its own, also one that asks for no redirect, such as 304: `delivered_or_refused`.
-/

namespace Rcurl

open ShellWords (Text)

/-- The response is a redirection and has a `Location` header. -/
def Response.givesTarget (response : Response) : Bool :=
  response.isRedirection && (MultiMap.get .location response.headers).isSome

/-- The response, and only it, is handled, and the run returns what that gives. -/
structure Delivered {Url : Type} (world : World) (cli : Cli) (last : HopState Url)
    (response : Response) (run : List Event × Ending) : Prop where
  /-- No other response is, and this one is once. -/
  handled : handledOf run.1 = [response]
  /-- The caller sees what handling it came to. -/
  returned : run.2 = handleResponse (world last.past) cli response

/-- Nothing is handled, and the run fails for the missing header. -/
structure RefusedWithoutLocation (run : List Event × Ending) : Prop where
  /-- No response goes to a file or to the screen. -/
  unhandled : handledOf run.1 = []
  /-- The caller sees what is missing. -/
  returned : run.2 = Ending.failed .missingLocation

/-- What is no redirection is delivered. -/
theorem direction_deliver {Url : Type} (urls : UrlOps Url) (url : Url) {response : Response}
    (final : response.isRedirection = false) : direction urls url response = .deliver := by
  rw [direction, final]
  rfl

/-- A redirection that gives no target is refused. -/
theorem direction_refuse {Url : Type} (urls : UrlOps Url) (url : Url) {response : Response}
    (redirection : response.isRedirection = true) (targetless : response.givesTarget = false) :
    direction urls url response = .refuse .missingLocation := by
  have absent : MultiMap.get .location response.headers = none := by
    simpa [Response.givesTarget, redirection] using targetless
  rw [direction, redirection, absent]
  rfl

section Chain

variable {Url : Type} {urls : UrlOps Url} {world : World} {cli : Cli}
variable {state last : HopState Url} {request : Request} {transmission : Option Transmission}
variable {response : Response} {count : Nat}

/-- The hop that refuses a response hands nothing over and fails. -/
theorem hop_refuses {error : HttpError}
    (fetched : Fetches urls world cli state request transmission response)
    (refused : direction urls state.url response = .refuse error) :
    handledOf (hop urls world cli state).events = [] ∧
      (hop urls world cli state).next = .inr (Ending.failed error) := by
  rw [fetched.hop_eq, finishHop]
  simp only [refused]
  constructor
  · cases transmission <;> rfl
  · trivial

/-- A chain that is shorter than the constant and ends in a refused response fails. -/
theorem call_refused {text : Text} {url : Url} {error : HttpError} (given : cli.url = some text)
    (parsed : urls.parse text = some url)
    (chain : RedirectChain urls world cli { url, past := [] } count last)
    (short : count < maxRedirects)
    (fetched : Fetches urls world cli last request transmission response)
    (refused : direction urls last.url response = .refuse error) :
    let run := httpRequestWithRedirects urls world cli
    handledOf run.1 = [] ∧ run.2 = Ending.failed error := by
  intro run
  have whole : run = hopsFrom urls world cli maxRedirects 0 { url, past := [] } :=
    httpRequestWithRedirects_eq given parsed
  obtain ⟨nothing, returns⟩ := hop_refuses fetched refused
  obtain ⟨only, ending⟩ := run_returns chain returns short
  rw [whole]
  exact ⟨only.trans nothing, ending⟩

/-- After fewer redirects than the constant, a response without a target is delivered if it is no
redirection, and refused for its missing header if it is one. -/
theorem delivered_or_refused {text : Text} {url : Url} (given : cli.url = some text)
    (parsed : urls.parse text = some url)
    (chain : RedirectChain urls world cli { url, past := [] } count last)
    (short : count < maxRedirects)
    (fetched : Fetches urls world cli last request transmission response)
    (targetless : response.givesTarget = false) :
    (response.isRedirection = false →
      Delivered world cli last response (httpRequestWithRedirects urls world cli)) ∧
    (response.isRedirection = true →
      RefusedWithoutLocation (httpRequestWithRedirects urls world cli)) := by
  constructor
  · intro final
    have way := direction_deliver urls last.url final
    obtain ⟨handled, returned⟩ := run_served chain fetched way short
    rw [httpRequestWithRedirects_eq given parsed]
    exact ⟨handled, returned⟩
  · intro redirection
    have way := direction_refuse urls last.url redirection targetless
    obtain ⟨unhandled, returned⟩ := call_refused given parsed chain short fetched way
    exact ⟨unhandled, returned⟩

end Chain

/-- The page after nine redirects is delivered. -/
theorem delivered_nine : ∃ last request transmission response,
    RedirectChain plainUrls countdown (countdownCli 9) { url := countdownUri 9, past := [] } 9 last ∧
      Fetches plainUrls countdown (countdownCli 9) last request transmission response ∧
        response.givesTarget = false ∧
          (response.isRedirection = false → Delivered countdown (countdownCli 9) last response
            (httpRequestWithRedirects plainUrls countdown (countdownCli 9))) ∧
          (response.isRedirection = true → RefusedWithoutLocation
            (httpRequestWithRedirects plainUrls countdown (countdownCli 9))) := by
  obtain ⟨past, chain⟩ := countdown_chain 9 9 (by omega) []
  have fetched := countdown_fetches 9 0 past
  have parsed : plainUrls.parse (countdownText 9) = some (countdownUri 9) := by decide
  exact ⟨_, _, _, _, chain, fetched, rfl,
    delivered_or_refused rfl parsed chain (by decide) fetched rfl⟩

/-! ## A conditional request -/

/-- `304 Not Modified`. -/
def notModified : Response := { emptyResponse with status := 304 }

/-- A server that has nothing newer. -/
def unmodified : World := fun _ => calmWorld fun _ => .answered notModified

/-- `rcurl -H "If-None-Match: *" http://h/`. -/
def conditionalCli : Cli := { plainCli with headers := ["If-None-Match: *".toList] }

/-- Its answer comes back. -/
theorem notModified_fetched : ∃ request transmission,
    Fetches plainUrls unmodified conditionalCli { url := plainUri, past := [] } request transmission
      notModified :=
  ⟨_, _, { sent := ⟨plainUri, rfl, rfl, rfl⟩ }⟩

/-- Its answer is not delivered. -/
theorem notModified_undelivered : ¬ ∀ (cli : Cli) (text : Text) (url : Uri) (world : World)
    (count : Nat) (last : HopState Uri) (request : Request) (transmission : Option Transmission)
    (response : Response),
    cli.url = some text → plainUrls.parse text = some url →
    RedirectChain plainUrls world cli { url, past := [] } count last → count < maxRedirects →
    Fetches plainUrls world cli last request transmission response →
    response.givesTarget = false →
      Delivered world cli last response (httpRequestWithRedirects plainUrls world cli) := by
  intro delivered
  obtain ⟨request, transmission, fetched⟩ := notModified_fetched
  have parsed : plainUrls.parse "http://h/".toList = some plainUri := by decide
  have promised := delivered conditionalCli _ _ unmodified 0 _ _ _ _ rfl parsed (.none _) (by decide)
    fetched rfl
  have refused := call_refused rfl parsed (.none _) (by decide) fetched
    (direction_refuse plainUrls plainUri rfl rfl)
  have handled := promised.handled
  rw [refused.1] at handled
  contradiction

end Rcurl
