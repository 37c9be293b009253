import Rcurl.Http.WebOnly

/-!
# The route of every request

A redirect may lead from one scheme and host to another, and every hop chooses its route again. A
request for an `https` URL never goes out but over TLS, with the trust that the options ask for, and a
proxy is gone through exactly when the options and the environment want it for that hop:
`transmitted_policy`. With an option for TLS information no such request goes out at all, and the call
ends at the hop: `tls_info_only`.
-/

namespace Rcurl

open ShellWords (Text)

/-- The TLS settings of a route. -/
def Route.settings : Route → Option TlsSettings
  | .tls settings => some settings
  | .tlsTunnel _ settings => some settings
  | .direct | .forwardProxy _ => none

/-- The proxy of a route. -/
def Route.proxy : Route → Option Text
  | .forwardProxy address => some address
  | .tlsTunnel address _ => some address
  | .direct | .tls _ => none

/-- The variables of a scheme that is asked for are those of `https` or of `http`. -/
def Uri.proxyScheme (uri : Uri) : Text := if uri.secure then "https".toList else "http".toList

/-- A request goes out on the route that the options and the environment ask for. -/
structure RoutePolicy {Url : Type} (urls : UrlOps Url) (vars : Vars) (cli : Cli)
    (transmission : Transmission) : Prop where
  /-- It goes over TLS exactly when its URL is secure. -/
  encrypted : transmission.route.settings.isSome = true ↔ transmission.request.uri.secure = true
  /-- The other side is trusted without a check exactly with `-k`. -/
  checked : ∀ settings, transmission.route.settings = some settings →
    settings.skipValidate = cli.skipCertificateValidate
  /-- The roots of trust are those of `-c`. -/
  roots : ∀ settings, transmission.route.settings = some settings →
    settings.certificatePath = cli.certificatePathOption
  /-- No proxy is gone through with `--noproxy`, nor for a host of `NO_PROXY`. -/
  around : cli.noproxy = true ∨ shouldBypassProxy vars transmission.request.uri.host = true →
    transmission.route.proxy = none
  /-- Otherwise it is the one that the environment names for the scheme. -/
  through : cli.noproxy = false → shouldBypassProxy vars transmission.request.uri.host = false →
    transmission.route.proxy =
      getProxyFromEnv urls vars transmission.request.uri.proxyScheme

section Routes

variable {Url : Type} {urls : UrlOps Url} {cli : Cli}

/-- A request on a route that is chosen by the proxy for its scheme. -/
theorem routePolicy_of_proxy {vars : Vars} {request wire : Request} {route : Route} {scheme : Text}
    (same : wire.uri = request.uri) (asked : scheme = request.uri.proxyScheme)
    (encrypted : route.settings.isSome = true ↔ request.uri.secure = true)
    (trust : ∀ settings, route.settings = some settings → settings = tlsSettings cli)
    (proxy : route.proxy = proxyFor urls vars cli scheme request) :
    RoutePolicy urls vars cli { route, request := wire } where
  encrypted := same ▸ encrypted
  checked settings given := trust settings given ▸ rfl
  roots settings given := trust settings given ▸ rfl
  around := by
    intro unwanted
    rw [same] at unwanted
    show route.proxy = none
    rw [proxy, proxyFor]
    rcases unwanted with off | bypassed
    · simp [off]
    · simp [bypassed]
  through := by
    intro on wanted
    rw [same] at wanted ⊢
    show route.proxy = _
    rw [proxy, proxyFor, on, wanted, asked]
    rfl

/-- A plain request keeps to the policy. -/
theorem sendHttpRequest_policy {world : HopWorld} {request : Request} {transmission : Transmission}
    (plain : request.uri.secure = false)
    (out : (sendHttpRequest urls world cli request).transmission = some transmission) :
    RoutePolicy urls world.vars cli transmission := by
  have asked : "http".toList = request.uri.proxyScheme := by
    rw [Uri.proxyScheme, plain, if_neg Bool.false_ne_true]
  rw [sendHttpRequest] at out
  cases proxy : proxyFor urls world.vars cli "http".toList request with
  | some address =>
    rw [proxy] at out
    rw [transmit_sent out]
    exact routePolicy_of_proxy rfl asked (by simp [Route.settings, plain]) (by simp [Route.settings])
      proxy.symm
  | none =>
    rw [proxy] at out
    rw [request_sent out]
    exact routePolicy_of_proxy (IsWire.uri_eq (Or.inr rfl)) asked (by simp [Route.settings, plain])
      (by simp [Route.settings]) proxy.symm

/-- A request over TLS keeps to the policy. -/
theorem sendOverTls_policy {world : HopWorld} {request : Request} {transmission : Transmission}
    (secure : request.uri.secure = true)
    (out : (sendOverTls urls world cli request).transmission = some transmission) :
    RoutePolicy urls world.vars cli transmission := by
  have asked : "https".toList = request.uri.proxyScheme := by
    rw [Uri.proxyScheme, secure, if_pos rfl]
  have wire : ∀ http2 : Bool, (if http2 then request else addHost request).uri = request.uri := by
    intro http2
    cases http2
    · exact IsWire.uri_eq (Or.inr rfl)
    · rfl
  have trust : ∀ settings, some (tlsSettings cli) = some settings → settings = tlsSettings cli :=
    fun settings same => (Option.some.inj same).symm
  rw [sendOverTls] at out
  split_ifs at out with untrusted
  cases proxy : proxyFor urls world.vars cli "https".toList request with
  | some address =>
    rw [proxy] at out
    rw [request_sent out]
    exact routePolicy_of_proxy (wire _) asked (by simp [Route.settings, secure]) trust proxy.symm
  | none =>
    rw [proxy] at out
    rw [request_sent out]
    exact routePolicy_of_proxy (wire _) asked (by simp [Route.settings, secure]) trust proxy.symm

/-- A URI is sent over TLS exactly when it is secure. -/
theorem schemeOrHttp_eq_iff (uri : Uri) : uri.schemeOrHttp = "https".toList ↔ uri.secure = true := by
  rw [Uri.schemeOrHttp, Uri.secure, beq_iff_eq]
  cases uri.scheme with
  | none => exact iff_of_false (by decide) (by simp)
  | some scheme => rw [Option.getD_some, Option.some.injEq]

/-- With an option for TLS information, nothing is sent over TLS to a host. -/
theorem sendHttpsRequest_silent {world : HopWorld} {request : Request} (wants : wantsTlsInfo cli = true)
    {name : Text} (known : request.uri.host = some name) :
    (sendHttpsRequest urls world cli request).transmission = none ∧
      ((∃ error, (sendHttpsRequest urls world cli request).result = .error error) ∨
        (sendHttpsRequest urls world cli request).result = .ok emptyResponse) := by
  rw [sendHttpsRequest, wants, known]
  refine ⟨rfl, ?_⟩
  simp only
  split_ifs
  · exact Or.inr rfl
  · exact Or.inl ⟨_, rfl⟩

/-- A request that is sent keeps to the policy, whatever its scheme. -/
theorem sendUnlogged_policy {world : HopWorld} {request : Request} {transmission : Transmission}
    (out : (sendUnlogged urls world cli request.uri.schemeOrHttp request).transmission =
      some transmission) : RoutePolicy urls world.vars cli transmission := by
  rw [sendUnlogged] at out
  cases secure : request.uri.secure with
  | false =>
    have plain : request.uri.schemeOrHttp ≠ "https".toList := by
      rw [Ne, schemeOrHttp_eq_iff, secure]
      exact Bool.false_ne_true
    rw [if_neg plain] at out
    exact sendHttpRequest_policy secure out
  | true =>
    rw [if_pos ((schemeOrHttp_eq_iff _).mpr secure), sendHttpsRequest] at out
    split at out
    · contradiction
    · exact sendOverTls_policy secure out

end Routes

section Calls

variable {Url : Type} {urls : UrlOps Url} {world : World} {cli : Cli}

/-- What a hop puts on the wire is what it sends of the request that it built. -/
theorem hop_sends {state : HopState Url} {transmission : Transmission}
    (shown : transmission ∈ transmittedOf (hop urls world cli state).events) :
    ∃ request, urls.toUri state.url = some request.uri ∧
      buildRequest (world state.past).build cli request.uri = .ok request ∧
        (sendUnlogged urls (world state.past) cli request.uri.schemeOrHttp request).transmission =
          some transmission := by
  rcases hop_cases state with ⟨error, whole⟩ | ⟨uri, request, target, built, whole⟩
  · rw [whole] at shown
    contradiction
  · rw [whole, transmittedOf_finishHop, Option.mem_toList] at shown
    have same := assembleRequest_uri (buildRequest_ok built)
    refine ⟨request, ?_, ?_, ?_⟩
    · rw [same]
      exact target
    · rw [same]
      exact built
    · rw [same]
      exact shown

/-- The response that stands for TLS information is delivered. -/
theorem direction_empty (url : Url) : direction urls url emptyResponse = .deliver := rfl

/-- It has nothing that the log could stumble over. -/
theorem logResponse_empty (hopWorld : HopWorld) :
    logResponse hopWorld cli emptyResponse = .ok emptyResponse := by
  have quiet : logHeaders hopWorld.build cli emptyResponse.headers = .ok () :=
    if_neg fun trips => Bool.noConfusion trips.2.2
  rw [logResponse, quiet]
  rfl

/-- The end of a hop that only asks for TLS information. -/
def EndsWithInfo (hopWorld : HopWorld) (cli : Cli) (ending : Ending) : Prop :=
  (∃ error, ending = Ending.failed error) ∨ ending = handleResponse hopWorld cli emptyResponse

/-- With an option for TLS information, a hop for a secure URL sends nothing and is the last. -/
theorem hop_info {state : HopState Url} {uri : Uri} {name : Text} (wants : wantsTlsInfo cli = true)
    (target : urls.toUri state.url = some uri) (secure : uri.secure = true)
    (known : uri.host = some name) :
    transmittedOf (hop urls world cli state).events = [] ∧
      ∃ ending, (hop urls world cli state).next = .inr ending ∧
        EndsWithInfo (world state.past) cli ending := by
  rcases hop_cases state with ⟨error, whole⟩ | ⟨other, request, again, built, whole⟩
  · rw [whole]
    exact ⟨rfl, _, rfl, Or.inl ⟨error, rfl⟩⟩
  · obtain rfl := Option.some.inj (target.symm.trans again)
    have same := assembleRequest_uri (buildRequest_ok built)
    have sends : sendUnlogged urls (world state.past) cli uri.schemeOrHttp request =
        sendHttpsRequest urls (world state.past) cli request := by
      rw [sendUnlogged, if_pos ((schemeOrHttp_eq_iff uri).mpr secure)]
    have asked : request.uri.host = some name := by rw [same, known]
    obtain ⟨quiet, result⟩ := @sendHttpsRequest_silent Url urls cli (world state.past) request wants
      name asked
    rw [whole]
    refine ⟨?_, ?_⟩
    · rw [transmittedOf_finishHop, sendRequest, sends, quiet]
      rfl
    · rw [finishHop, sendRequest, sends]
      rcases result with ⟨error, failed⟩ | told
      · rw [failed]
        exact ⟨_, rfl, Or.inl ⟨error, rfl⟩⟩
      · rw [told]
        simp only [Except.bind, logResponse_empty, direction_empty]
        exact ⟨_, rfl, Or.inr rfl⟩

end Calls

/-- Every request of a call keeps to the policy of its hop, whatever the redirects lead to. -/
theorem transmitted_policy {Url : Type} (urls : UrlOps Url) (world : World) (cli : Cli)
    (transmission : Transmission)
    (sent : transmission ∈ transmittedOf (httpRequestWithRedirects urls world cli).1) :
    ∃ count < maxRedirects, ∃ state, Reached urls world cli count state ∧
      urls.toUri state.url = some transmission.request.uri ∧
        RoutePolicy urls (world state.past).vars cli transmission := by
  obtain ⟨count, bound, state, reached, shown⟩ := transmitted_iff.mp sent
  obtain ⟨request, target, _, out⟩ := hop_sends shown
  have wire := (sendUnlogged_cases urls (world state.past) cli request _).wire out
  refine ⟨count, bound, state, reached, ?_, sendUnlogged_policy out⟩
  rw [wire.uri_eq]
  exact target

/-- A call that only asks for TLS information sends nothing to a secure URL, and ends there. -/
structure InfoOnly {Url : Type} (urls : UrlOps Url) (world : World) (cli : Cli)
    (run : List Event × Ending) : Prop where
  /-- No request for a secure URL with a host goes out. -/
  silent : ∀ transmission ∈ transmittedOf run.1, transmission.request.uri.secure = true →
    transmission.request.uri.host = none
  /-- A hop for such a URL is the last, and its end is that of the information. -/
  last : ∀ count < maxRedirects, ∀ state uri name, Reached urls world cli count state →
    urls.toUri state.url = some uri → uri.secure = true → uri.host = some name →
      transmittedOf run.1 = state.past ∧ EndsWithInfo (world state.past) cli run.2

/-- With an option for TLS information nothing is requested over TLS, whatever plain hops lead to
it: the call sends no request to a secure URL and ends at the first one. -/
theorem tls_info_only {Url : Type} (urls : UrlOps Url) (world : World) (cli : Cli)
    (wants : wantsTlsInfo cli = true) :
    InfoOnly urls world cli (httpRequestWithRedirects urls world cli) := by
  constructor
  · intro transmission sent secure
    obtain ⟨count, bound, state, reached, shown⟩ := transmitted_iff.mp sent
    obtain ⟨uri, request, target, assembled, wire⟩ := hop_transmits (mem_transmittedOf.mp shown)
    have same : transmission.request.uri = uri := wire.uri_eq.trans (assembleRequest_uri assembled)
    rw [same] at secure ⊢
    cases known : uri.host with
    | none => rfl
    | some name =>
      have quiet : transmittedOf (hop urls world cli state).events = [] :=
        (hop_info wants target secure known).1
      rw [quiet] at shown
      contradiction
  · intro count bound state uri name reached target secure known
    obtain ⟨events, past, whole⟩ := reached.run_eq (Nat.le_of_lt bound)
    obtain ⟨quiet, ending, ends, info⟩ := @hop_info Url urls world cli state uri name wants target
      secure known
    obtain ⟨spare, left⟩ : ∃ spare, maxRedirects - count = spare + 1 :=
      ⟨maxRedirects - count - 1, by omega⟩
    rw [whole, left, hopsFrom, BoundedLoop.run_return ends, transmittedOf_append, past, quiet,
      List.append_nil]
    exact ⟨rfl, info⟩

/-! ## A plain call, and a call for TLS information -/

/-- The plain call goes straight to its host. -/
theorem transmitted_policy_plain : ∃ count < maxRedirects, ∃ state,
    Reached plainUrls (fun _ => calmWorld fun _ => .answered emptyResponse) plainCli count state ∧
      plainUrls.toUri state.url = some plainUri ∧
        RoutePolicy plainUrls (fun _ => none) plainCli
          { route := .direct, request := addHost plainRequest } :=
  transmitted_policy plainUrls (fun _ => calmWorld fun _ => .answered emptyResponse) plainCli
    { route := .direct, request := addHost plainRequest } (by decide)

/-- `rcurl --tls-info https://h/` sends nothing. -/
theorem tls_info_only_secure :
    InfoOnly plainUrls (fun _ => calmWorld fun _ => .answered emptyResponse)
      { url := some "https://h/".toList, tlsInfo := true }
      (httpRequestWithRedirects plainUrls (fun _ => calmWorld fun _ => .answered emptyResponse)
        { url := some "https://h/".toList, tlsInfo := true }) :=
  tls_info_only _ _ _ rfl

end Rcurl
