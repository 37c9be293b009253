import Rcurl.Http.Proxy
import Rcurl.Http.RequestHeaders

/-!
# Sending a request

`send_request` and the two paths under it. A request goes out on a route: straight to the target or
through a proxy, plain or over TLS. On the straight and the TLS routes hyper's client adds a missing
`Host` on an HTTP/1 connection, and refuses a request for HTTP/2 there; on the plain proxy route the
request goes out as it was built. What the other side does is given by the world of the hop.
-/

namespace Rcurl

open ShellWords (Text)

/-- The protocols offered over TLS. -/
inductive TlsVersions where
  | all | http2 | http1
  deriving DecidableEq, Repr

/-- The settings of a TLS connection. -/
structure TlsSettings where
  /-- Which versions of HTTP the handshake offers. -/
  versions : TlsVersions
  /-- `-k`: take any chain of certificates. -/
  skipValidate : Bool
  /-- `-c`: a file with the roots of trust. -/
  certificatePath : Option Text
  deriving DecidableEq, Repr

/-- Where a request is put on the wire. -/
inductive Route where
  /-- A plain connection to the target. -/
  | direct
  /-- A plain connection to a forward proxy. -/
  | forwardProxy (address : Text)
  /-- A TLS connection to the target. -/
  | tls (settings : TlsSettings)
  /-- A TLS connection to the target through a proxy's tunnel. -/
  | tlsTunnel (address : Text) (settings : TlsSettings)
  deriving DecidableEq, Repr

/-- A request on the wire. -/
structure Transmission where
  /-- Which way it goes. -/
  route : Route
  /-- The request as it goes out. -/
  request : Request
  deriving DecidableEq, Repr

/-- What comes of an exchange; the flag tells a timeout from another error. -/
inductive Exchange where
  /-- No connection: nothing goes out. -/
  | unreached (late : Bool)
  /-- The request goes out and no response comes back. -/
  | broken (late : Bool)
  /-- A response. -/
  | answered (response : Response)
  deriving DecidableEq, Repr

/-- What one hop takes from outside. -/
structure HopWorld where
  /-- Files, forms and the log. -/
  build : BuildWorld
  /-- The environment. -/
  vars : Vars
  /-- `get_tls_info` succeeds for a host and a port. -/
  tlsInfo : Text → UInt16 → Bool
  /-- The roots of trust load, from a file or built in. -/
  roots : Option Text → Bool
  /-- The other side picks HTTP/2 when it is offered. -/
  picksHttp2 : Bool
  /-- The network and the other side. -/
  exchange : Transmission → Exchange
  /-- The output file can be opened. -/
  openFile : Text → Bool
  /-- How many bytes fit into the output file, if there is a bound. -/
  room : Option Nat
  /-- The standard output can be flushed. -/
  flushes : Bool
  /-- The installed log filter lets `info!` through: it does, unless `RUST_LOG` says otherwise. -/
  infoLogs : Bool

/-- A world without files and variables, where nothing fails but the exchange. -/
def calmWorld (exchange : Transmission → Exchange) : HopWorld where
  build :=
    { readFile := fun _ => none, mimeOf := fun _ => none, boundary := [], debugLogs := true }
  vars := fun _ => none
  tlsInfo := fun _ _ => true
  roots := fun _ => true
  picksHttp2 := false
  exchange := exchange
  openFile := fun _ => true
  room := none
  flushes := true
  infoLogs := true

/-- What sending does: the request that went out, if any, and the response or an error. -/
structure Sent where
  /-- The request on the wire. -/
  transmission : Option Transmission
  /-- The response. -/
  result : Except HttpError Response

/-- Put a request on a route. -/
def HopWorld.transmit (world : HopWorld) (route : Route) (request : Request) : Sent :=
  match world.exchange { route, request } with
  | .unreached late =>
    { transmission := none, result := .error (if late then .timedOut else .execute) }
  | .broken late =>
    { transmission := some { route, request },
      result := .error (if late then .timedOut else .execute) }
  | .answered response => { transmission := some { route, request }, result := .ok response }

/-- The scheme is the secure one. -/
def Uri.secure (uri : Uri) : Bool := uri.scheme == some "https".toList

/-- The port, unless it is the default of the scheme. -/
def nonDefaultPort (authority : Authority) (secure : Bool) : Option UInt16 :=
  match authority.port with
  | some port => if port = (if secure then 443 else 80) then none else some port
  | none => none

/-- The host, and the port unless it is the default. -/
def hostText (authority : Authority) (secure : Bool) : Text :=
  match nonDefaultPort authority secure with
  | some port => hostPort authority.host port
  | none => authority.host

/-- The value hyper's client gives to a missing `Host`. -/
def hostValue (uri : Uri) : Option HeaderValue :=
  uri.authority.bind fun authority => HeaderValue.fromStr (hostText authority uri.secure)

/-- hyper's client over HTTP/1: a missing `Host` is added from the target. -/
def addHost (request : Request) : Request :=
  if MultiMap.getAll .host request.headers = [] then
    match hostValue request.uri with
    | some value => { request with headers := MultiMap.insert .host value request.headers }
    | none => request
  else request

/-- hyper's client with a request for HTTP/2 on an HTTP/1 connection: it is refused once there is a
connection, and nothing goes out. -/
def HopWorld.refuse (world : HopWorld) (route : Route) (request : Request) : Sent where
  transmission := none
  result := .error (if world.exchange { route, request } = .unreached true then .timedOut
    else .execute)

/-- hyper's client on a connection that is HTTP/2 or not. -/
def HopWorld.request (world : HopWorld) (http2 : Bool) (route : Route) (request : Request) : Sent :=
  if http2 then world.transmit route request
  else if request.version = .http2 then world.refuse route request
  else world.transmit route (addHost request)

/-- The proxy a request goes through, unless the options or `NO_PROXY` say otherwise. -/
def proxyFor {Url : Type} (urls : UrlOps Url) (vars : Vars) (cli : Cli) (scheme : Text)
    (request : Request) : Option Text :=
  if !cli.noproxy && !shouldBypassProxy vars request.uri.host then getProxyFromEnv urls vars scheme
  else none

/-- `send_http_request`. -/
def sendHttpRequest {Url : Type} (urls : UrlOps Url) (world : HopWorld) (cli : Cli)
    (request : Request) : Sent :=
  match proxyFor urls world.vars cli "http".toList request with
  | some address => world.transmit (.forwardProxy address) request
  | none => world.request false .direct request

/-- The TLS settings the options ask for. -/
def tlsSettings (cli : Cli) : TlsSettings where
  versions := if cli.http2 then .all else if cli.http2PriorKnowledge then .http2 else .http1
  skipValidate := cli.skipCertificateValidate
  certificatePath := cli.certificatePathOption

/-- The connection is HTTP/2 when that is offered and the other side picks it. -/
def TlsSettings.overHttp2 (settings : TlsSettings) (picksHttp2 : Bool) : Bool :=
  settings.versions != .http1 && picksHttp2

/-- The response that stands for the TLS information; nothing was requested for it. -/
def emptyResponse : Response where
  version := .http11
  status := 200
  headers := []
  body := []

/-- The options that only ask for TLS information. -/
def wantsTlsInfo (cli : Cli) : Bool :=
  cli.tlsInfo || cli.certInfo || cli.tlsInfoJson || cli.certInfoJson

/-- The exchange of `send_https_request`. -/
def sendOverTls {Url : Type} (urls : UrlOps Url) (world : HopWorld) (cli : Cli)
    (request : Request) : Sent :=
  if world.roots cli.certificatePathOption = false then
    { transmission := none, result := .error .certificate }
  else
    let settings := tlsSettings cli
    let http2 := settings.overHttp2 world.picksHttp2
    match proxyFor urls world.vars cli "https".toList request with
    | some address => world.request http2 (.tlsTunnel address settings) request
    | none => world.request http2 (.tls settings) request

/-- `send_https_request`: the TLS information instead of the exchange, when it is asked for. -/
def sendHttpsRequest {Url : Type} (urls : UrlOps Url) (world : HopWorld) (cli : Cli)
    (request : Request) : Sent :=
  match wantsTlsInfo cli, request.uri.host with
  | true, some name =>
    { transmission := none
      result :=
        if world.tlsInfo name (request.uri.port.getD 443) then .ok emptyResponse
        else .error .tlsInfo }
  | _, _ => sendOverTls urls world cli request

/-- `send_request` before its log. -/
def sendUnlogged {Url : Type} (urls : UrlOps Url) (world : HopWorld) (cli : Cli) (scheme : Text)
    (request : Request) : Sent :=
  if scheme = "https".toList then sendHttpsRequest urls world cli request
  else sendHttpRequest urls world cli request

/-- The log of a response. -/
def logResponse (world : HopWorld) (cli : Cli) (response : Response) :
    Except HttpError Response := do
  logHeaders world.build cli response.headers
  .ok response

/-- `send_request`. -/
def sendRequest {Url : Type} (urls : UrlOps Url) (world : HopWorld) (cli : Cli) (scheme : Text)
    (request : Request) : Sent :=
  let sent := sendUnlogged urls world cli scheme request
  { sent with result := sent.result.bind (logResponse world cli) }

/-- What is answered on a route went out on it. -/
theorem transmit_answered {world : HopWorld} {route : Route} {request : Request}
    {response : Response} (answered : (world.transmit route request).result = .ok response) :
    (world.transmit route request).transmission = some { route, request } := by
  rw [HopWorld.transmit] at answered ⊢
  cases outcome : world.exchange { route, request } with
  | unreached late => simp [outcome] at answered
  | broken late => rfl
  | answered response => rfl

/-- What is sent on a route is the request on it. -/
theorem transmit_sent {world : HopWorld} {route : Route} {wire : Request}
    {transmission : Transmission}
    (out : (world.transmit route wire).transmission = some transmission) :
    transmission = { route, request := wire } := by
  rw [HopWorld.transmit] at out
  split at out
  · contradiction
  · exact (Option.some.inj out).symm
  · exact (Option.some.inj out).symm

/-- What hyper's client sends is the request, with its `Host` on an HTTP/1 connection. -/
theorem request_sent {world : HopWorld} {http2 : Bool} {route : Route} {request : Request}
    {transmission : Transmission}
    (out : (world.request http2 route request).transmission = some transmission) :
    transmission = { route, request := if http2 then request else addHost request } := by
  rw [HopWorld.request] at out
  split_ifs at out ⊢
  · exact transmit_sent out
  · contradiction
  · exact transmit_sent out

/-- The request with or without hyper's `Host`. -/
def IsWire (request wire : Request) : Prop := wire = request ∨ wire = addHost request

section Sending

variable {Url : Type} (urls : UrlOps Url) (world : HopWorld) (cli : Cli) (request : Request)

/-- What sending can do: put the request on a route, fail with nothing sent, or answer with the
response that stands for TLS information. -/
def SendsOneOf (sent : Sent) : Prop :=
  (∃ route wire, IsWire request wire ∧ sent = world.transmit route wire) ∨
    (∃ error, sent = { transmission := none, result := .error error }) ∨
      wantsTlsInfo cli = true ∧ sent = { transmission := none, result := .ok emptyResponse }

/-- What hyper's client does. -/
theorem request_cases (http2 : Bool) (route : Route) :
    SendsOneOf world cli request (world.request http2 route request) := by
  rw [HopWorld.request]
  split_ifs
  · exact .inl ⟨route, request, .inl rfl, rfl⟩
  · exact .inr (.inl ⟨_, rfl⟩)
  · exact .inl ⟨route, addHost request, .inr rfl, rfl⟩

/-- What `send_http_request` does. -/
theorem sendHttpRequest_cases :
    SendsOneOf world cli request (sendHttpRequest urls world cli request) := by
  rw [sendHttpRequest]
  split
  · exact .inl ⟨_, _, .inl rfl, rfl⟩
  · exact request_cases world cli request false .direct

/-- What the exchange of `send_https_request` does. -/
theorem sendOverTls_cases : SendsOneOf world cli request (sendOverTls urls world cli request) := by
  rw [sendOverTls]
  by_cases untrusted : world.roots cli.certificatePathOption = false
  · rw [if_pos untrusted]
    exact .inr (.inl ⟨_, rfl⟩)
  · rw [if_neg untrusted]
    extract_lets settings http2
    split
    · exact request_cases world cli request http2 _
    · exact request_cases world cli request http2 _

/-- What `send_https_request` does. -/
theorem sendHttpsRequest_cases :
    SendsOneOf world cli request (sendHttpsRequest urls world cli request) := by
  rw [sendHttpsRequest]
  split
  · rename_i wants _
    split_ifs
    · exact .inr (.inr ⟨wants, rfl⟩)
    · exact .inr (.inl ⟨_, rfl⟩)
  · exact sendOverTls_cases urls world cli request

/-- What sending does, whatever the scheme. -/
theorem sendUnlogged_cases (scheme : Text) :
    SendsOneOf world cli request (sendUnlogged urls world cli scheme request) := by
  rw [sendUnlogged]
  split_ifs
  · exact sendHttpsRequest_cases urls world cli request
  · exact sendHttpRequest_cases urls world cli request

end Sending

/-- What is sent is on the wire. -/
theorem SendsOneOf.wire {world : HopWorld} {cli : Cli} {request : Request} {sent : Sent}
    {transmission : Transmission} (does : SendsOneOf world cli request sent)
    (out : sent.transmission = some transmission) : IsWire request transmission.request := by
  rcases does with ⟨route, wire, same, rfl⟩ | ⟨error, rfl⟩ | ⟨_, rfl⟩
  · rw [transmit_sent out]
    exact same
  · contradiction
  · contradiction

/-- A response to no request is the one that stands for TLS information, which was asked for. -/
theorem SendsOneOf.unsent {world : HopWorld} {cli : Cli} {request : Request} {sent : Sent}
    {response : Response} (does : SendsOneOf world cli request sent)
    (unsent : sent.transmission = none) (answered : sent.result = .ok response) :
    wantsTlsInfo cli = true ∧ response = emptyResponse := by
  rcases does with ⟨route, wire, _, rfl⟩ | ⟨error, rfl⟩ | ⟨wants, rfl⟩
  · rw [transmit_answered answered] at unsent
    contradiction
  · contradiction
  · exact ⟨wants, (Except.ok.inj answered).symm⟩

end Rcurl
