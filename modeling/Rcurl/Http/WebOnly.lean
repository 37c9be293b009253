import Rcurl.Http.Redirects

/-!
# Which schemes are requested

The dispatch lets web URLs in, the loop follows a redirect to any URL. The client of the straight path
refuses what is not `http`, the path through a forward proxy does not look: `webOnly_iff` says when no
other request goes out.
-/

namespace Rcurl

open ShellWords (Text)

/-- The schemes of the web. -/
def Uri.IsWeb (uri : Uri) : Prop :=
  uri.scheme = some "http".toList ∨ uri.scheme = some "https".toList

/-- hyper's connector reaches nothing for a target that is not `http`. -/
def RefusesOthers (world : World) : Prop :=
  ∀ past request, request.uri.scheme ≠ some "http".toList →
    ∃ late, (world past).exchange { route := .direct, request } = .unreached late

/-- Only web requests go out, and a hop for anything else ends the call with an error and nothing
sent. -/
structure WebOnly {Url : Type} (urls : UrlOps Url) (world : World) (cli : Cli)
    (run : List Event × Ending) : Prop where
  /-- Every request is for a web URL. -/
  sent : ∀ transmission ∈ transmittedOf run.1, transmission.request.uri.IsWeb
  /-- A hop for another URL is the end. -/
  refused : ∀ count state, Reached urls world cli count state → count ≤ maxRedirects →
    (∀ uri, urls.toUri state.url = some uri → ¬ uri.IsWeb) →
      (∃ error, run.2 = Ending.failed error) ∧ transmittedOf run.1 = state.past

/-- No forward proxy takes the request of a hop: it is not asked, or cannot be reached. -/
def Unproxied {Url : Type} (urls : UrlOps Url) (world : HopWorld) (cli : Cli) (request : Request) :
    Prop :=
  ∀ address, proxyFor urls world.vars cli "http".toList request = some address →
    ∃ late, world.exchange { route := .forwardProxy address, request } = .unreached late

/-- No forward proxy takes a request that a hop builds for another URL. -/
def HopUnproxied {Url : Type} (urls : UrlOps Url) (world : World) (cli : Cli)
    (state : HopState Url) : Prop :=
  ∀ uri request, urls.toUri state.url = some uri → ¬ uri.IsWeb →
    buildRequest (world state.past).build cli uri = .ok request →
      Unproxied urls (world state.past) cli request

section Hop

variable {Url : Type} {urls : UrlOps Url} {world : World} {cli : Cli} {state : HopState Url}

/-- hyper's `Host` leaves the target. -/
theorem IsWire.uri_eq {request wire : Request} (same : IsWire request wire) :
    wire.uri = request.uri := by
  rcases same with rfl | rfl
  · rfl
  · rw [addHost]
    split_ifs
    · split
      · rfl
      · rfl
    · rfl

/-- What is not of the web is not sent over TLS. -/
theorem schemeOrHttp_ne {uri : Uri} (other : ¬ uri.IsWeb) : uri.schemeOrHttp ≠ "https".toList := by
  rw [Uri.schemeOrHttp]
  cases known : uri.scheme with
  | none => decide
  | some scheme =>
    intro same
    rw [Option.getD_some] at same
    exact other (Or.inr (by rw [known, same]))

/-- An exchange that reaches nobody sends nothing and fails. -/
theorem transmit_unreached {hopWorld : HopWorld} {route : Route} {request : Request} {late : Bool}
    (unreached : hopWorld.exchange { route, request } = .unreached late) :
    ∃ error, hopWorld.transmit route request = { transmission := none, result := .error error } := by
  rw [HopWorld.transmit, unreached]
  exact ⟨_, rfl⟩

/-- An exchange that reaches somebody sends the request. -/
theorem transmit_reached {hopWorld : HopWorld} {route : Route} {request : Request}
    (reached : ¬ ∃ late, hopWorld.exchange { route, request } = .unreached late) :
    (hopWorld.transmit route request).transmission = some { route, request } := by
  rw [HopWorld.transmit]
  cases outcome : hopWorld.exchange { route, request } with
  | unreached late => exact (reached ⟨late, outcome⟩).elim
  | broken late => rfl
  | answered response => rfl

/-- For another URL, without a proxy that takes it, sending fails with nothing sent. -/
theorem sendUnlogged_refused {uri : Uri} {request : Request} (other : ¬ uri.IsWeb)
    (same : request.uri = uri) (refuses : RefusesOthers world)
    (unproxied : Unproxied urls (world state.past) cli request) :
    ∃ error, sendUnlogged urls (world state.past) cli uri.schemeOrHttp request =
      { transmission := none, result := .error error } := by
  rw [sendUnlogged, if_neg (schemeOrHttp_ne other), sendHttpRequest]
  cases proxy : proxyFor urls (world state.past).vars cli "http".toList request with
  | some address =>
    obtain ⟨late, unreached⟩ := unproxied address proxy
    exact transmit_unreached unreached
  | none =>
    have target : (addHost request).uri = uri := (IsWire.uri_eq (Or.inr rfl)).trans same
    have plain : (addHost request).uri.scheme ≠ some "http".toList := by
      rw [target]
      exact fun known => other (Or.inl known)
    obtain ⟨late, unreached⟩ := refuses state.past (addHost request) plain
    simp only [HopWorld.request, Bool.false_eq_true, if_false]
    split_ifs
    · exact ⟨_, rfl⟩
    · exact transmit_unreached unreached

/-- For another URL, a hop without a proxy that takes it fails with nothing sent. -/
theorem hop_refused (refuses : RefusesOthers world)
    (other : ∀ uri, urls.toUri state.url = some uri → ¬ uri.IsWeb)
    (unproxied : HopUnproxied urls world cli state) :
    (∃ error, (hop urls world cli state).next = .inr (Ending.failed error)) ∧
      transmittedOf (hop urls world cli state).events = [] := by
  rcases hop_cases state with ⟨error, whole⟩ | ⟨uri, request, target, built, whole⟩
  · rw [whole]
    exact ⟨⟨error, rfl⟩, rfl⟩
  · have same : request.uri = uri := assembleRequest_uri (buildRequest_ok built)
    obtain ⟨error, sent⟩ := sendUnlogged_refused (other uri target) same refuses
      (unproxied uri request target (other uri target) built)
    rw [whole, transmittedOf_finishHop, sendRequest, sent]
    exact ⟨⟨error, rfl⟩, rfl⟩

/-- A hop for a web URL sends web requests. -/
theorem hop_web {uri : Uri} {transmission : Transmission} (target : urls.toUri state.url = some uri)
    (web : uri.IsWeb) (shown : transmission ∈ transmittedOf (hop urls world cli state).events) :
    transmission.request.uri.IsWeb := by
  obtain ⟨known, request, given, assembled, wire⟩ := hop_transmits (mem_transmittedOf.mp shown)
  rw [target] at given
  rw [wire.uri_eq, assembleRequest_uri assembled, ← Option.some.inj given]
  exact web

/-- For another URL, a proxy that takes the request is sent it. -/
theorem hop_proxied {uri : Uri} {request : Request} (target : urls.toUri state.url = some uri)
    (other : ¬ uri.IsWeb) (built : buildRequest (world state.past).build cli uri = .ok request)
    (proxied : ¬ Unproxied urls (world state.past) cli request) :
    ∃ transmission ∈ transmittedOf (hop urls world cli state).events,
      ¬ transmission.request.uri.IsWeb := by
  rw [Unproxied] at proxied
  push Not at proxied
  obtain ⟨address, proxy, reached⟩ := proxied
  have out : (sendRequest urls (world state.past) cli uri.schemeOrHttp request).transmission =
      some { route := .forwardProxy address, request } := by
    rw [sendRequest, sendUnlogged, if_neg (schemeOrHttp_ne other), sendHttpRequest, proxy]
    exact transmit_reached (by push Not; exact reached)
  have whole : hop urls world cli state = finishHop urls (world state.past) cli state request
      (sendRequest urls (world state.past) cli uri.schemeOrHttp request) := by
    rw [hop, target]
    simp only
    rw [built]
  refine ⟨{ route := .forwardProxy address, request }, ?_, ?_⟩
  · rw [whole, transmittedOf_finishHop, out]
    exact Option.mem_toList.mpr rfl
  · rw [assembleRequest_uri (buildRequest_ok built)]
    exact other

end Hop

/-- Only web requests go out exactly when, at every hop the call gets to, no forward proxy takes a
request for another URL. -/
theorem webOnly_iff {Url : Type} (urls : UrlOps Url) (world : World) (cli : Cli)
    (refuses : RefusesOthers world) :
    WebOnly urls world cli (httpRequestWithRedirects urls world cli) ↔
      ∀ count < maxRedirects, ∀ state, Reached urls world cli count state →
        HopUnproxied urls world cli state := by
  constructor
  · intro only count bound state reached uri request target other built
    by_contra proxied
    obtain ⟨transmission, member, foreign⟩ := hop_proxied target other built proxied
    exact foreign (only.sent transmission
      (transmitted_iff.mpr ⟨count, bound, state, reached, member⟩))
  · intro unproxied
    constructor
    · intro transmission member
      obtain ⟨count, bound, state, reached, shown⟩ := transmitted_iff.mp member
      by_cases web : ∃ uri, urls.toUri state.url = some uri ∧ uri.IsWeb
      · obtain ⟨uri, target, web⟩ := web
        exact hop_web target web shown
      · have other : ∀ uri, urls.toUri state.url = some uri → ¬ uri.IsWeb :=
          fun uri target known => web ⟨uri, target, known⟩
        have quiet := (hop_refused refuses other (unproxied count bound state reached)).2
        rw [quiet] at shown
        contradiction
    · intro count state reached bound other
      obtain ⟨events, past, whole⟩ := reached.run_eq bound
      rw [whole, transmittedOf_append, past]
      rcases Nat.lt_or_eq_of_le bound with short | rfl
      · obtain ⟨⟨error, ends⟩, quiet⟩ :=
          hop_refused refuses other (unproxied count short state reached)
        obtain ⟨spare, left⟩ : ∃ spare, maxRedirects - count = spare + 1 :=
          ⟨maxRedirects - count - 1, by omega⟩
        rw [left, hopsFrom, BoundedLoop.run_return ends, quiet, List.append_nil]
        exact ⟨⟨error, rfl⟩, rfl⟩
      · rw [Nat.sub_self]
        exact ⟨⟨_, rfl⟩, List.append_nil _⟩

/-! ## A redirect to an FTP server -/

/-- Web URLs, and those of FTP servers. -/
def ftpLinkUrls : UrlOps Uri :=
  { plainUrls with join := fun _ text => (plainUrls.parse text).or (parseUnder "ftp".toList text) }

/-- A redirect to `ftp://g/` at first, then a page; the straight path refuses what is not `http`. -/
def ftpLink (vars : Vars) : World := fun past =>
  { calmWorld fun transmission =>
      if transmission.route = .direct ∧ transmission.request.uri.scheme ≠ some "http".toList then
        .unreached false
      else .answered <|
        if past = [] then
          { emptyResponse with
            status := 302
            headers := [(.location, { bytes := "ftp://g/".toList.map (UInt8.ofNat ·.toNat),
                                      valid := by decide })] }
        else emptyResponse with
    vars }

/-- The straight path refuses. -/
theorem ftpLink_refuses (vars : Vars) : RefusesOthers (ftpLink vars) := by
  intro past request other
  exact ⟨false, if_pos ⟨rfl, other⟩⟩

/-- A proxy in the environment. -/
def proxyVariable : Vars := fun name =>
  if name = "http_proxy".toList then some "127.0.0.1:3128".toList else none

/-- Without a proxy the request for `g` does not go out. -/
theorem webOnly_straight : WebOnly ftpLinkUrls (ftpLink fun _ => none) plainCli
    (httpRequestWithRedirects ftpLinkUrls (ftpLink fun _ => none) plainCli) := by
  refine (webOnly_iff ftpLinkUrls _ plainCli (ftpLink_refuses _)).mpr ?_
  intro _ _ state _ uri request _ _ _ address proxy
  have unset : ∀ bypassed : Bool, (if bypassed then
      getProxyFromEnv ftpLinkUrls (fun _ => none) "http".toList else none) = none := by decide
  rw [proxyFor] at proxy
  rw [show (ftpLink (fun _ => none) state.past).vars = fun _ => none from rfl, unset] at proxy
  contradiction

/-- The proxy is asked for the page of the FTP server. -/
theorem webOnly_proxied : ¬ ∀ (world : World) (cli : Cli), RefusesOthers world →
    WebOnly ftpLinkUrls world cli (httpRequestWithRedirects ftpLinkUrls world cli) := by
  intro only
  have foreign : ∃ transmission ∈
      transmittedOf (httpRequestWithRedirects ftpLinkUrls (ftpLink proxyVariable) plainCli).1,
        transmission.request.uri.scheme = some "ftp".toList := by decide
  obtain ⟨transmission, member, scheme⟩ := foreign
  rcases (only _ plainCli (ftpLink_refuses _)).sent transmission member with web | web
  · rw [scheme] at web
    exact absurd web (by decide)
  · rw [scheme] at web
    exact absurd web (by decide)

end Rcurl
