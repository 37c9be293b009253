import Rcurl.Http.HostHeader
import Rcurl.Http.RoutePolicy

/-!
# The host that every request names

On the way to a proxy in between, over a tunnel or straight to the target: what the other side reads in
the `Host` of a request is the host and the port of that request's own URL, whatever hop of a chain of
redirects it is, unless the user gave a `Host`. One that the user gave goes out on every hop, to whatever
host the redirects lead: `call_hosts`.
-/

namespace Rcurl

open ShellWords (Text)

/-- hyper's client writes a `Host` on the route, unless HTTP/2 is offered over TLS and picked. -/
def Route.writesHost (picksHttp2 : Bool) : Route → Bool
  | .direct => true
  | .forwardProxy _ => false
  | .tls settings => !(settings.versions != .http1 && picksHttp2)
  | .tlsTunnel _ settings => !(settings.versions != .http1 && picksHttp2)

/-- The port of a scheme. -/
def schemePort (secure : Bool) : Nat := if secure then 443 else 80

/-- The port that is connected to. -/
def Authority.effectivePort (authority : Authority) (secure : Bool) : Nat :=
  match authority.port with
  | some port => port.toNat
  | none => schemePort secure

/-- A host and a port from a `Host`: the port stands behind the last colon, if it is a number. -/
def readHost (secure : Bool) (text : Text) : Text × Nat :=
  let port := RustText.afterLast ':' text
  if ':' ∈ text ∧ port ≠ [] ∧ port.all Char.isDigit = true then
    (text.take (text.length - port.length - 1), Nat.ofDigitChars 10 port 0)
  else (text, schemePort secure)

/-- A host as URIs have it: a name without a colon, or an address in brackets. -/
def IsHost (host : Text) : Prop := ':' ∉ host ∨ ∃ address, host = address ++ [']']

/-- What the other side has of the `Host` of a request. -/
structure NamesHost (picksHttp2 : Bool) (cli : Cli) (transmission : Transmission) : Prop where
  /-- One that the user gave goes out as it is, and no other. -/
  given : ∀ value, lastHeader .host cli.headers = some value →
    MultiMap.getAll .host transmission.request.headers = [value]
  /-- Otherwise it is one, and it reads as the host and the port of the request. -/
  named : lastHeader .host cli.headers = none → transmission.route.writesHost picksHttp2 = true →
    ∀ authority, transmission.request.uri.authority = some authority → IsHost authority.host →
      ∃ value, MultiMap.getAll .host transmission.request.headers = [value] ∧
        (Utf8.decode value.bytes).map (readHost transmission.request.uri.secure) =
          some (authority.host, authority.effectivePort transmission.request.uri.secure)
  /-- Where hyper's client writes none there is none. -/
  unnamed : lastHeader .host cli.headers = none → transmission.route.writesHost picksHttp2 = false →
    MultiMap.getAll .host transmission.request.headers = []

/-! ## Reading -/

/-- A host without a port is read as it is. -/
theorem readHost_host {host : Text} (isHost : IsHost host) (secure : Bool) :
    readHost secure host = (host, schemePort secure) := by
  have plain : ¬ (':' ∈ host ∧ RustText.afterLast ':' host ≠ [] ∧
      (RustText.afterLast ':' host).all Char.isDigit = true) := by
    rintro ⟨colon, _, digits⟩
    rcases isHost with absent | ⟨address, rfl⟩
    · exact absent colon
    · have last : ']' ∈ RustText.afterLast ':' (address ++ [']']) := by
        have first : ((address ++ [']']).reverse).takeWhile (· ≠ ':') =
            ']' :: address.reverse.takeWhile (· ≠ ':') := by
          rw [List.reverse_append, List.reverse_singleton, List.singleton_append]
          exact List.takeWhile_cons_of_pos (by decide)
        unfold RustText.afterLast
        rw [first, List.mem_reverse]
        exact List.mem_cons_self
      have digit := List.all_eq_true.mp digits ']' last
      exact absurd digit (by decide)
  unfold readHost
  exact if_neg plain

/-- A host with a port is read in two parts, whatever the host. -/
theorem readHost_hostPort (host : Text) (port : UInt16) (secure : Bool) :
    readHost secure (hostPort host port) = (host, port.toNat) := by
  have digits : (RustText.decimal port.toNat).all Char.isDigit = true :=
    List.all_eq_true.mpr fun c member => RustText.isDigit_decimal member
  have found : RustText.afterLast ':' (hostPort host port) = RustText.decimal port.toNat :=
    RustText.afterLast_append host (RustText.notMem_decimal rfl port.toNat)
  have colon : ':' ∈ hostPort host port := List.mem_append_right host List.mem_cons_self
  have front : (hostPort host port).length - (RustText.decimal port.toNat).length - 1 = host.length := by
    rw [hostPort, List.length_append, List.length_cons]
    omega
  unfold readHost
  rw [found]
  dsimp only
  rw [if_pos ⟨colon, RustText.decimal_ne_nil _, digits⟩, front, hostPort, List.take_left,
    RustText.ofDigitChars_decimal]

/-- The port that is written is any but that of the scheme. -/
theorem nonDefaultPort_eq {authority : Authority} {port : UInt16} (known : authority.port = some port)
    (secure : Bool) :
    nonDefaultPort authority secure =
      if port.toNat = schemePort secure then none else some port := by
  have usual : (port = if secure then 443 else 80) ↔ port.toNat = schemePort secure := by
    rw [← UInt16.toNat_inj]
    cases secure
    · rfl
    · rfl
  rw [nonDefaultPort, known]
  exact if_congr usual rfl rfl

/-- The text of a host and a port is read back, the port of the scheme included. -/
theorem readHost_hostText {authority : Authority} (isHost : IsHost authority.host) (secure : Bool) :
    readHost secure (hostText authority secure) =
      (authority.host, authority.effectivePort secure) := by
  unfold hostText Authority.effectivePort
  cases known : authority.port with
  | none =>
    rw [nonDefaultPort, known]
    exact readHost_host isHost secure
  | some port =>
    rw [nonDefaultPort_eq known]
    dsimp only
    split_ifs with usual
    · rw [usual]
      exact readHost_host isHost secure
    · exact readHost_hostPort authority.host port secure

/-- hyper's client adds the text of the host of a request that has none. -/
theorem getAll_addHost {request : Request} {authority : Authority}
    (known : request.uri.authority = some authority)
    (missing : MultiMap.getAll .host request.headers = []) :
    ∃ value, MultiMap.getAll .host (addHost request).headers = [value] ∧
      value.bytes = Utf8.encode (hostText authority request.uri.secure) := by
  obtain ⟨value, valid, bytes⟩ := fromStr_visible (hostText_visible authority request.uri.secure)
  have added : hostValue request.uri = some value := by
    rw [hostValue, known, Option.bind_some, valid]
  refine ⟨value, ?_, bytes⟩
  rw [addHost, if_pos missing, added]
  exact MultiMap.getAll_insert_self _ _ _

/-- It leaves a request that has one. -/
theorem addHost_of_given {request : Request} {values : List HeaderValue}
    (given : MultiMap.getAll .host request.headers = values) (some : values ≠ []) :
    addHost request = request := by
  have present : MultiMap.getAll .host request.headers ≠ [] := by rwa [given]
  rw [addHost, if_neg present]

/-! ## Hops and calls -/

section Routes

variable {Url : Type} {urls : UrlOps Url} {world : HopWorld} {cli : Cli} {request : Request}

/-- The request as it goes out on a route. -/
def Route.wire (route : Route) (picksHttp2 : Bool) (request : Request) : Request :=
  if route.writesHost picksHttp2 then addHost request else request

/-- What goes out is the request on its route. -/
theorem sendUnlogged_wire {scheme : Text} {transmission : Transmission}
    (out : (sendUnlogged urls world cli scheme request).transmission = some transmission) :
    transmission.request = transmission.route.wire world.picksHttp2 request := by
  have overTls : (sendOverTls urls world cli request).transmission = some transmission →
      transmission.request = transmission.route.wire world.picksHttp2 request := by
    intro sent
    unfold sendOverTls at sent
    split_ifs at sent with untrusted
    extract_lets settings http2 at sent
    split at sent
    · rw [request_sent sent]
      cases picked : http2 <;> simp_all [Route.wire, Route.writesHost, TlsSettings.overHttp2, http2]
    · rw [request_sent sent]
      cases picked : http2 <;> simp_all [Route.wire, Route.writesHost, TlsSettings.overHttp2, http2]
  unfold sendUnlogged at out
  split_ifs at out with secure
  · unfold sendHttpsRequest at out
    split at out
    · contradiction
    · exact overTls out
  · unfold sendHttpRequest at out
    split at out
    · rw [transmit_sent out]
      rfl
    · rw [request_sent out]
      rfl

/-- A request that was built names its host on every route. -/
theorem namesHost_wire {uri : Uri} (built : buildRequest world.build cli uri = .ok request)
    (route : Route) (picksHttp2 : Bool) :
    NamesHost picksHttp2 cli { route, request := route.wire picksHttp2 request } := by
  have hosts := built_host built
  have target : (route.wire picksHttp2 request).uri = request.uri := by
    unfold Route.wire
    split_ifs
    · exact IsWire.uri_eq (Or.inr rfl)
    · rfl
  refine ⟨fun value given => ?_, fun missing writes authority known isHost => ?_,
    fun missing quiet => ?_⟩
  · rw [given, Option.toList_some] at hosts
    have same : route.wire picksHttp2 request = request := by
      unfold Route.wire
      rw [addHost_of_given hosts (List.cons_ne_nil value []), ite_self]
    show MultiMap.getAll .host (route.wire picksHttp2 request).headers = [value]
    rw [same, hosts]
  · rw [missing, Option.toList_none] at hosts
    dsimp only at writes known ⊢
    rw [target] at known ⊢
    obtain ⟨value, single, bytes⟩ := getAll_addHost known hosts
    refine ⟨value, ?_, ?_⟩
    · unfold Route.wire
      rw [if_pos writes, single]
    · rw [bytes, Utf8.decode_encode, Option.map_some, readHost_hostText isHost]
  · rw [missing, Option.toList_none] at hosts
    dsimp only at quiet ⊢
    unfold Route.wire
    rw [quiet]
    exact hosts

end Routes

/-- Every request of a call names the host of its own hop, whatever the redirects lead to, and goes
with the `Host` that the user gave on every hop if there is one. -/
theorem call_hosts {Url : Type} (urls : UrlOps Url) (world : World) (cli : Cli)
    (transmission : Transmission)
    (sent : transmission ∈ transmittedOf (httpRequestWithRedirects urls world cli).1) :
    ∃ count < maxRedirects, ∃ state, Reached urls world cli count state ∧
      urls.toUri state.url = some transmission.request.uri ∧
        NamesHost (world state.past).picksHttp2 cli transmission := by
  obtain ⟨count, bound, state, reached, shown⟩ := transmitted_iff.mp sent
  obtain ⟨request, target, built, out⟩ := hop_sends shown
  have wire := (sendUnlogged_cases urls (world state.past) cli request _).wire out
  have same := sendUnlogged_wire out
  refine ⟨count, bound, state, reached, ?_, ?_⟩
  · rw [wire.uri_eq]
    exact target
  · have names := namesHost_wire built transmission.route (world state.past).picksHttp2
    rwa [← same] at names

/-- The plain call names its host. -/
theorem call_hosts_plain : ∃ count < maxRedirects, ∃ state,
    Reached plainUrls (fun _ => calmWorld fun _ => .answered emptyResponse) plainCli count state ∧
      plainUrls.toUri state.url = some plainUri ∧
        NamesHost false plainCli { route := .direct, request := addHost plainRequest } :=
  call_hosts plainUrls (fun _ => calmWorld fun _ => .answered emptyResponse) plainCli
    { route := .direct, request := addHost plainRequest } (by decide)

end Rcurl
