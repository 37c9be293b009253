import Rcurl.Http.Redirects

/-!
# The `Host` of a plain HTTP request

`build_request` sets no `Host`. hyper's client adds it on the direct path; on the forward proxy path
the request goes out as it was built, so that it has one exactly when the user gave it:
`plainHost_iff`.
-/

namespace Rcurl

open ShellWords (Text)

/-- The characters of a digit sequence and a separator are visible. -/
theorem hostPort_visible {name : Text} (visible : ∀ c ∈ name, 33 ≤ c.toNat ∧ c.toNat < 127)
    (port : UInt16) : ∀ c ∈ hostPort name port, 33 ≤ c.toNat ∧ c.toNat < 127 := by
  intro c member
  rw [hostPort, List.mem_append, List.mem_cons] at member
  rcases member with known | rfl | digit
  · exact visible c known
  · decide
  · have bounds : c.isDigit = true := Nat.isDigit_of_mem_toDigits (by decide) (by decide) digit
    rw [Char.isDigit_iff_toNat] at bounds
    have low : '0'.toNat = 48 := rfl
    have high : '9'.toNat = 57 := rfl
    omega

/-- The text of a host is visible. -/
theorem hostText_visible (authority : Authority) (secure : Bool) :
    ∀ c ∈ hostText authority secure, 33 ≤ c.toNat ∧ c.toNat < 127 := by
  rw [hostText]
  cases nonDefaultPort authority secure with
  | none => exact authority.visible.2
  | some port => exact hostPort_visible authority.visible.2 port

/-- A visible text is a header value. -/
theorem fromStr_visible {text : Text} (visible : ∀ c ∈ text, 33 ≤ c.toNat ∧ c.toNat < 127) :
    ∃ value, HeaderValue.fromStr text = some value ∧ value.bytes = Utf8.encode text := by
  have valid : (Utf8.encode text).all isValueByte = true := by
    rw [List.all_eq_true]
    intro byte member
    have ascii : ∀ c ∈ text, c.toNat < 128 := fun c known => by have := visible c known; omega
    obtain ⟨c, known, code⟩ := Utf8.code_of_mem_encode ascii member
    have bounds := visible c known
    have low : (32 : UInt8) ≤ byte := by
      rw [UInt8.le_iff_toNat_le, code]
      exact Nat.le_of_lt bounds.1
    have high : byte ≠ 127 := by
      intro delete
      rw [delete] at code
      have := bounds.2
      simp at code
      omega
    simp [isValueByte, low, high]
  exact ⟨{ bytes := Utf8.encode text, valid }, dif_pos valid, rfl⟩

/-- The one `Host` that a plain request must have, unless the user gave one. -/
def HostValid (cli : Cli) (authority : Authority) (request : Request) : Prop :=
  lastHeader .host cli.headers = none →
    ∃ value, MultiMap.getAll .host request.headers = [value] ∧
      value.bytes = Utf8.encode (hostText authority false)

/-- A built request has the `Host` the user gave, and no other. -/
theorem built_host {world : BuildWorld} {cli : Cli} {uri : Uri} {request : Request}
    (built : buildRequest world cli uri = .ok request) :
    MultiMap.getAll .host request.headers = (lastHeader .host cli.headers).toList := by
  have base : baseValue cli .host = none := by
    rw [baseValue, if_neg (by decide), if_neg (by decide), if_neg (by decide)]
  rw [assembleRequest_values (buildRequest_ok built) .host (by decide), base, Option.or_none]

/-- hyper's client makes it valid. -/
theorem addHost_valid {cli : Cli} {authority : Authority} {request : Request}
    (known : request.uri.authority = some authority) (plain : request.uri.secure = false)
    (missing : lastHeader .host cli.headers = none → MultiMap.getAll .host request.headers = []) :
    HostValid cli authority (addHost request) := by
  intro absent
  obtain ⟨value, given, bytes⟩ := fromStr_visible (hostText_visible authority false)
  have added : hostValue request.uri = some value := by
    rw [hostValue, known, Option.bind_some, plain, given]
  refine ⟨value, ?_, bytes⟩
  rw [addHost, if_pos (missing absent), added]
  exact MultiMap.getAll_insert_self _ _ _

section Plain

variable {Url : Type} {urls : UrlOps Url} {world : HopWorld} {cli : Cli} {uri : Uri}
variable {authority : Authority} {request : Request} {transmission : Transmission}

/-- No proxy is used exactly when the options, `NO_PROXY` or the lack of a proxy say so. -/
theorem proxyFor_none_iff {vars : Vars} {scheme : Text} :
    proxyFor urls vars cli scheme request = none ↔
      cli.noproxy = true ∨ shouldBypassProxy vars request.uri.host = true ∨
        getProxyFromEnv urls vars scheme = none := by
  rw [proxyFor]
  cases cli.noproxy <;> cases shouldBypassProxy vars request.uri.host <;> simp

/-- A plain request that goes out has its one `Host` exactly when the user gave one or no proxy is
used. -/
theorem plainHost_iff (plain : uri.scheme = some "http".toList)
    (known : uri.authority = some authority) (built : buildRequest world.build cli uri = .ok request)
    (out : (sendHttpRequest urls world cli request).transmission = some transmission) :
    HostValid cli authority transmission.request ↔
      (lastHeader .host cli.headers).isSome = true ∨ cli.noproxy = true ∨
        shouldBypassProxy world.vars uri.host = true ∨
          getProxyFromEnv urls world.vars "http".toList = none := by
  have target : request.uri = uri := assembleRequest_uri (buildRequest_ok built)
  have hosts := built_host built
  rw [← target, ← proxyFor_none_iff]
  rw [sendHttpRequest] at out
  cases proxied : proxyFor urls world.vars cli "http".toList request with
  | none =>
    rw [proxied] at out
    have insecure : request.uri.secure = false := by
      rw [target, Uri.secure, plain]
      decide
    have authorized : request.uri.authority = some authority := by rw [target, known]
    have missing : lastHeader .host cli.headers = none →
        MultiMap.getAll .host request.headers = [] := by
      intro absent
      rw [hosts, absent, Option.toList_none]
    have valid := addHost_valid authorized insecure missing
    rw [request_sent out]
    exact iff_of_true valid (.inr rfl)
  | some address =>
    rw [proxied] at out
    rw [HostValid, transmit_sent out, hosts]
    cases lastHeader .host cli.headers with
    | none => simp
    | some value => simp

end Plain

/-! ## A request through a proxy -/

/-- `HTTP_PROXY=http://p:3128`, and every request is answered. -/
def proxiedWorld : HopWorld :=
  { calmWorld (fun _ => .answered emptyResponse) with
    vars := fun name =>
      if name = "HTTP_PROXY".toList then some "http://p:3128".toList else none }

/-- The request on its way to the proxy has no `Host`. -/
theorem proxied_without_host : ¬ ∀ (world : HopWorld) (cli : Cli) (uri : Uri) (authority : Authority)
    (request : Request) (transmission : Transmission),
    uri.scheme = some "http".toList → uri.authority = some authority →
    buildRequest world.build cli uri = .ok request →
    (sendHttpRequest plainUrls world cli request).transmission = some transmission →
      HostValid cli authority transmission.request := by
  intro valid
  have proxied : proxyFor plainUrls proxiedWorld.vars plainCli "http".toList plainRequest =
      some "p:3128".toList := by decide
  have out : (sendHttpRequest plainUrls proxiedWorld plainCli plainRequest).transmission =
      some { route := .forwardProxy "p:3128".toList, request := plainRequest } := by
    rw [sendHttpRequest, proxied]
    rfl
  obtain ⟨value, given, _⟩ := valid proxiedWorld plainCli plainUri _ plainRequest _ rfl rfl
    (plainRequest_built (fun _ => .answered emptyResponse) plainUri) out rfl
  have none_given : MultiMap.getAll .host plainRequest.headers = [] := by decide
  rw [none_given] at given
  contradiction

/-- Straight to the target it has one. -/
theorem direct_host :
    HostValid plainCli { host := "h".toList, port := none, visible := by decide }
        (addHost plainRequest) ↔
      (lastHeader .host plainCli.headers).isSome = true ∨ plainCli.noproxy = true ∨
        shouldBypassProxy (fun _ => none) plainUri.host = true ∨
          getProxyFromEnv plainUrls (fun _ => none) "http".toList = none :=
  plainHost_iff rfl rfl (plainRequest_built (fun _ => .answered emptyResponse) plainUri) rfl

end Rcurl
