import Rcurl.Http.RoutePolicy
import Rcurl.Tls.Info

/-!
# Whom a call trusts

The world of a hop over the TLS crates and the network: roots and TLS information are had as
`Rcurl.Tls` has them, and an exchange over TLS comes about when the handshake with whoever is at the other
end goes well. In such a world no request of any call goes to a peer over TLS but an authentic one:
`call_authentic`.
-/

namespace Rcurl

open ShellWords (Text)

/-- The protocols that are offered with the versions. -/
def TlsVersions.protocols : TlsVersions → List Text
  | .http1 => []
  | .http2 => ["h2".toList]
  | .all => ["h2".toList, "http/1.1".toList]

/-- The TLS crates and the network of a hop. -/
structure TlsSide (Anchor Name : Type) where
  /-- What webpki, the PEM reader and the certificate parser decide. -/
  crates : TlsCrates Anchor Name
  /-- What `get_tls_info` finds behind names and addresses. -/
  network : TlsNetwork
  /-- Who is at the other end of a connection for a request, be it the target or somebody else. -/
  peer : Transmission → Peer

section Worlds

variable {Anchor Name : Type}

/-- The handshake for a request goes well. -/
def handshakeFor (side : TlsSide Anchor Name) (files : Text → Option Bytes) (verbosity : UInt8)
    (settings : TlsSettings) (transmission : Transmission) : Bool :=
  requestAccepts side.crates files verbosity settings.skipValidate settings.certificatePath
    (transmission.request.uri.host.getD []) settings.versions.protocols (side.peer transmission)

/-- A hop over the crates and the network; anything but TLS is as it was. -/
def HopWorld.overTls (base : HopWorld) (side : TlsSide Anchor Name) (cli : Cli) : HopWorld :=
  { base with
    tlsInfo := fun host port =>
      (getTlsInfo side.crates side.network base.build.readFile host port cli.skipCertificateValidate
        cli.certificatePathOption).isOk
    roots := fun path =>
      (requestVerifier side.crates base.build.readFile cli.verbosity cli.skipCertificateValidate
        path).isOk
    exchange := fun transmission =>
      match transmission.route.settings with
      | none => base.exchange transmission
      | some settings =>
        if handshakeFor side base.build.readFile cli.verbosity settings transmission then
          base.exchange transmission
        else .unreached false }

/-- What goes out has been reached. -/
theorem transmit_not_unreached {world : HopWorld} {route : Route} {wire : Request}
    {transmission : Transmission}
    (out : (world.transmit route wire).transmission = some transmission) (late : Bool) :
    world.exchange transmission ≠ .unreached late := by
  have same := transmit_sent out
  rw [HopWorld.transmit, ← same] at out
  intro unreached
  rw [unreached] at out
  contradiction

/-- What is sent has been reached. -/
theorem sendUnlogged_reached {Url : Type} {urls : UrlOps Url} {world : HopWorld} {cli : Cli}
    {request : Request} {scheme : Text} {transmission : Transmission}
    (out : (sendUnlogged urls world cli scheme request).transmission = some transmission)
    (late : Bool) : world.exchange transmission ≠ .unreached late := by
  rcases sendUnlogged_cases urls world cli request scheme with
    ⟨route, wire, _, sent⟩ | ⟨error, sent⟩ | ⟨_, sent⟩
  · rw [sent] at out
    exact transmit_not_unreached out late
  · rw [sent] at out
    contradiction
  · rw [sent] at out
    contradiction

/-- An exchange over TLS comes about behind its handshake. -/
theorem overTls_exchange {base : HopWorld} {side : TlsSide Anchor Name} {cli : Cli}
    {transmission : Transmission} {settings : TlsSettings}
    (given : transmission.route.settings = some settings) :
    (base.overTls side cli).exchange transmission =
      if handshakeFor side base.build.readFile cli.verbosity settings transmission then
        base.exchange transmission
      else .unreached false := by
  rw [HopWorld.overTls]
  simp only [given]

/-- Over TLS a request is reached only behind its handshake. -/
theorem handshake_of_reached {base : HopWorld} {side : TlsSide Anchor Name} {cli : Cli}
    {transmission : Transmission} {settings : TlsSettings}
    (given : transmission.route.settings = some settings)
    (reached : (base.overTls side cli).exchange transmission ≠ .unreached false) :
    handshakeFor side base.build.readFile cli.verbosity settings transmission = true := by
  by_contra failed
  rw [overTls_exchange given, if_neg failed] at reached
  exact reached rfl

/-- A request is on its way to an authentic peer for its host, by the options and the files of the hop. -/
def GoesToAuthentic (side : TlsSide Anchor Name) (files : Text → Option Bytes) (cli : Cli)
    (transmission : Transmission) : Prop :=
  ∃ name, side.crates.serverName (unbracketed (transmission.request.uri.host.getD [])) = some name ∧
    Authentic side.crates files cli.certificatePathOption cli.skipCertificateValidate name
      (side.peer transmission).proof

/-- What a hop sends to a secure URL goes to an authentic peer. -/
theorem sendUnlogged_authentic {Url : Type} {urls : UrlOps Url} {base : HopWorld}
    {side : TlsSide Anchor Name} {cli : Cli} {request : Request} {transmission : Transmission}
    (out : (sendUnlogged urls (base.overTls side cli) cli request.uri.schemeOrHttp request).transmission =
      some transmission) (secure : transmission.request.uri.secure = true) :
    GoesToAuthentic side base.build.readFile cli transmission := by
  have policy := sendUnlogged_policy out
  obtain ⟨settings, given⟩ := Option.isSome_iff_exists.mp (policy.encrypted.mpr secure)
  have done := handshake_of_reached given (sendUnlogged_reached out false)
  obtain ⟨name, known, authentic, _⟩ := requestAccepts_iff.mp done
  rw [policy.checked settings given, policy.roots settings given] at authentic
  exact ⟨name, known, authentic⟩

end Worlds

/-- No call sends a request for a secure URL to anybody but an authentic peer, whatever the redirects
lead to, whoever is at the other end, and also through a proxy. -/
theorem call_authentic {Url Anchor Name : Type} (urls : UrlOps Url) (base : World)
    (side : List Transmission → TlsSide Anchor Name) (cli : Cli) (transmission : Transmission)
    (sent : transmission ∈ transmittedOf (httpRequestWithRedirects urls
      (fun past => (base past).overTls (side past) cli) cli).1)
    (secure : transmission.request.uri.secure = true) :
    ∃ count < maxRedirects, ∃ state,
      Reached urls (fun past => (base past).overTls (side past) cli) cli count state ∧
        GoesToAuthentic (side state.past) (base state.past).build.readFile cli transmission := by
  obtain ⟨count, bound, state, reached, shown⟩ := transmitted_iff.mp sent
  obtain ⟨request, _, _, out⟩ := hop_sends shown
  exact ⟨count, bound, state, reached, sendUnlogged_authentic out secure⟩

/-! ## A server with a certificate of its own -/

/-- Crates that trust the certificates of a file themselves, where a message is its own signature. -/
def selfSigned : TlsCrates Der Text where
  certs content := [some content]
  anchor := some
  tlsServerRoots := []
  webPki roots :=
    { verifyServerCert := fun endEntity _ _ _ _ => roots.contains endEntity
      verifyTls12Signature := fun message _ signature => message == signature
      verifyTls13Signature := fun message _ signature => message == signature
      supportedVerifySchemes := [0x0403] }
  serverName host := if host.head? = some '[' ∨ host = [] then none else some host
  parseX509 _ := .error "no certificate".toList
  unanchored _ _ := rfl
  bracketed _ bracket := if_pos (Or.inl bracket)

/-- A server that shows a certificate of one byte. -/
def oneByteServer : Peer where
  proof :=
    { endEntity := [7], intermediates := [], ocsp := [], now := 0, tls13 := true, message := [1],
      signature := [1] }
  completes _ _ := true
  protocolVersion := "TLSv1_3".toList
  cipherSuite := "TLS13_AES_256_GCM_SHA384".toList
  peerCertificates := some [[7]]

/-- The server is everywhere. -/
def oneByteSide : TlsSide Der Text where
  crates := selfSigned
  network := { lookup := fun _ _ => some ["::1".toList], connects := fun _ => true,
               peer := fun _ => oneByteServer }
  peer _ := oneByteServer

/-- A world with its certificate in a file. -/
def rootFileWorld : HopWorld :=
  { calmWorld fun _ => .answered emptyResponse with
    build := { (calmWorld fun _ => .answered emptyResponse).build with readFile := fun _ => some [7] } }

/-- `rcurl -c r https://h/`. -/
def rootFileCli : Cli :=
  { url := some "https://h/".toList, certificatePathOption := some "r".toList }

/-- What `rcurl -c r https://h/` sends. -/
def rootFileTransmissions : List Transmission :=
  transmittedOf (httpRequestWithRedirects plainUrls
    (fun _ => rootFileWorld.overTls oneByteSide rootFileCli) rootFileCli).1

/-- The request goes to the server of the certificate. -/
theorem call_authentic_root_file : ∃ transmission, rootFileTransmissions = [transmission] ∧
    ∃ count < maxRedirects, ∃ state,
      Reached plainUrls (fun _ => rootFileWorld.overTls oneByteSide rootFileCli) rootFileCli count
          state ∧
        GoesToAuthentic oneByteSide rootFileWorld.build.readFile rootFileCli transmission := by
  have one : rootFileTransmissions.length = 1 := by decide
  have secure : ∀ transmission ∈ rootFileTransmissions,
      transmission.request.uri.secure = true := by decide
  obtain ⟨transmission, whole⟩ := List.length_eq_one_iff.mp one
  have member : transmission ∈ rootFileTransmissions := by
    rw [whole]
    exact List.mem_singleton_self transmission
  exact ⟨transmission, whole, call_authentic plainUrls (fun _ => rootFileWorld) (fun _ => oneByteSide)
    rootFileCli transmission member (secure transmission member)⟩

end Rcurl
