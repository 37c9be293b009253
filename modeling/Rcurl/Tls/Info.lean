import Rcurl.Tls.CertificateJson
import Rcurl.Tls.ShortIssuer
import Rcurl.Tls.Verifier

/-!
# TLS information

`tls::info`: a handshake of its own whose peer is described, without a request. The network, the peer and
the certificates come from outside. A description is had exactly of a peer that can be reached, that is
authentic by the rules for requests, whose host is no bracketed address, and whose certificate can be
read. It says the fields of that certificate, with a size of the key that is a guess, and never lists
one: `tlsInfo_iff`.
-/

namespace Rcurl

open RustText (Text)

/-- `TlsInfo`. -/
@[ext] structure TlsInfo where
  /-- What client and server agreed to speak. -/
  tlsVersion : Text
  /-- What they agreed to encrypt with. -/
  cipherSuite : Text
  /-- The certificates; none are ever filled in. -/
  peerCertificates : List CertificateInfo
  deriving DecidableEq, Repr

/-- The other end of a connection. -/
structure Peer where
  /-- What it shows. -/
  proof : PeerProof
  /-- The rest of the handshake goes well, for the schemes and the protocols that are offered. -/
  completes : List UInt16 → List Text → Bool
  /-- The version that is agreed on, as `{:?}` writes it. -/
  protocolVersion : Text
  /-- The cipher suite, as `{:?}` writes it. -/
  cipherSuite : Text
  /-- `peer_certificates`: what the peer shows, its own certificate first. -/
  peerCertificates : Option (List Der)

/-- The network. -/
structure TlsNetwork where
  /-- `to_socket_addrs`. -/
  lookup : Text → UInt16 → Option (List Text)
  /-- `TcpStream::connect`. -/
  connects : Text → Bool
  /-- Who is at an address. -/
  peer : Text → Peer

/-- `extract_key_size`. -/
def extractKeySize (publicKey : SubjectPublicKeyInfo) : Option Nat :=
  let contains (pattern : String) := (afterPattern pattern.toList publicKey.algorithmOid).isSome
  if contains "2.5.8.1.1" || contains "rsa" then
    match publicKey.parsed with
    | some (.rsa modulus) => some (modulus.length * 8)
    | _ => none
  else if contains "ecPublicKey" || contains "1.2.840.10045.2.1" then some 256
  else if contains "ed25519" || contains "1.3.101.112" then some 256
  else if contains "ed448" || contains "1.3.101.113" then some 448
  else none

/-- The description of a certificate. -/
def describe (cert : X509Certificate) : CertificateInfo where
  subject := cert.subject
  issuer := cert.issuer
  serialNumber := cert.serial
  validityNotBefore := cert.notBefore
  validityNotAfter := cert.notAfter
  subjectAltNames :=
    match cert.subjectAlternativeName with
    | some names => names
    | none => []
  keySize := extractKeySize cert.publicKey
  signatureAlgorithm := cert.signatureOid
  publicKeyAlgorithm := cert.publicKey.algorithm

section Handshake

variable {Anchor Name : Type} (crates : TlsCrates Anchor Name)

/-- `extract_certificate_info`. -/
def extractCertificateInfo (der : Der) : Except TlsError CertificateInfo :=
  match crates.parseX509 der with
  | .ok cert => .ok (describe cert)
  | .error error => .error (.certificate error)

/-- `extract_cert_info_from_connection`. -/
def extractCertInfoFromConnection (peer : Peer) : Except TlsError (Option CertificateInfo) :=
  match peer.peerCertificates with
  | some (endEntity :: _) => (extractCertificateInfo crates endEntity).map some
  | _ => .ok none

/-- `extract_tls_info_from_connection`. -/
def extractTlsInfoFromConnection (peer : Peer) : TlsInfo where
  tlsVersion := peer.protocolVersion
  cipherSuite := peer.cipherSuite
  peerCertificates := []

/-- A handshake with a peer, with a verifier, and with the protocols that are offered. -/
def handshake (verifier : ServerCertVerifier Name) (protocols : List Text) (name : Name)
    (peer : Peer) : Bool :=
  verifier.accepts name peer.proof && peer.completes verifier.supportedVerifySchemes protocols

/-- The address that is connected to. -/
def firstAddress (network : TlsNetwork) (host : Text) (port : UInt16) : Except TlsError Text :=
  match network.lookup host port with
  | none => .error .lookup
  | some [] => .error (.resolve host port)
  | some (address :: _) => if network.connects address then .ok address else .error .connect

/-- `ServerName::try_from`, and its error. -/
def serverNameFor (host : Text) : Except TlsError Name :=
  match crates.serverName host with
  | some name => .ok name
  | none => .error (.serverName host)

/-- The handshake of `get_tls_info`. -/
def connectPeer (verifier : ServerCertVerifier Name) (name : Name) (peer : Peer) :
    Except TlsError Unit :=
  if handshake verifier [] name peer then .ok () else .error .handshake

/-- `get_tls_info`. -/
def getTlsInfo (network : TlsNetwork) (files : Text → Option (List UInt8)) (host : Text)
    (port : UInt16) (skipVerify : Bool) (certPath : Option Text) :
    Except TlsError (TlsInfo × Option CertificateInfo) := do
  let address ← firstAddress network host port
  let verifier ← infoVerifier crates files skipVerify certPath
  let name ← serverNameFor crates host
  connectPeer verifier name (network.peer address)
  let certInfo ← extractCertInfoFromConnection crates (network.peer address)
  return (extractTlsInfoFromConnection (network.peer address), certInfo)

end Handshake

/-! ## Whose description is had -/

section Described

variable {Anchor Name : Type} {crates : TlsCrates Anchor Name}

/-- The first address of a host is its peer's, when it can be reached. -/
structure Reaches (network : TlsNetwork) (host : Text) (port : UInt16) (peer : Peer) : Prop where
  /-- The address is the first, and can be connected to. -/
  first : ∃ address rest, network.lookup host port = some (address :: rest) ∧
    network.connects address = true ∧ network.peer address = peer

/-- The identifier of a key's algorithm has a mark of RSA. -/
def SubjectPublicKeyInfo.SaysRsa (publicKey : SubjectPublicKeyInfo) : Prop :=
  "2.5.8.1.1".toList <:+: publicKey.algorithmOid ∨ "rsa".toList <:+: publicKey.algorithmOid

/-- It has a mark of an elliptic curve, or of Ed25519. -/
def SubjectPublicKeyInfo.SaysCurve (publicKey : SubjectPublicKeyInfo) : Prop :=
  ("ecPublicKey".toList <:+: publicKey.algorithmOid ∨
    "1.2.840.10045.2.1".toList <:+: publicKey.algorithmOid) ∨
  "ed25519".toList <:+: publicKey.algorithmOid ∨ "1.3.101.112".toList <:+: publicKey.algorithmOid

/-- It has a mark of Ed448. -/
def SubjectPublicKeyInfo.SaysEd448 (publicKey : SubjectPublicKeyInfo) : Prop :=
  "ed448".toList <:+: publicKey.algorithmOid ∨ "1.3.101.113".toList <:+: publicKey.algorithmOid

/-- The sizes that are said of keys. Only that of RSA is measured, in whole bytes of the modulus. -/
inductive SizeSaid (publicKey : SubjectPublicKeyInfo) : Nat → Prop where
  /-- An RSA key that can be read. -/
  | rsa {modulus : List UInt8} (said : publicKey.SaysRsa)
    (parsed : publicKey.parsed = some (.rsa modulus)) : SizeSaid publicKey (modulus.length * 8)
  /-- A key on any curve. -/
  | curve (other : ¬ publicKey.SaysRsa) (said : publicKey.SaysCurve) : SizeSaid publicKey 256
  /-- A key of Ed448. -/
  | ed448 (other : ¬ publicKey.SaysRsa) (straight : ¬ publicKey.SaysCurve)
    (said : publicKey.SaysEd448) : SizeSaid publicKey 448

/-- What a description says of a certificate. -/
structure Describes (cert : X509Certificate) (info : CertificateInfo) : Prop where
  /-- The subject is that of the certificate. -/
  subject : info.subject = cert.subject
  /-- The issuer is, too. -/
  issuer : info.issuer = cert.issuer
  /-- The number is the one the issuer gave. -/
  serialNumber : info.serialNumber = cert.serial
  /-- It is valid from and until when the certificate says. -/
  validity : (info.validityNotBefore, info.validityNotAfter) = (cert.notBefore, cert.notAfter)
  /-- There are no other names where the extension is missing. -/
  subjectAltNames : info.subjectAltNames = cert.subjectAlternativeName.getD []
  /-- The size is the one that is said of such keys. -/
  keySize : ∀ size, info.keySize = some size ↔ SizeSaid cert.publicKey size
  /-- The algorithms are those of the signature and of the key. -/
  algorithms : (info.signatureAlgorithm, info.publicKeyAlgorithm) =
    (cert.signatureOid, cert.publicKey.algorithm)

/-- What is said of a peer. -/
structure Described (crates : TlsCrates Anchor Name) (peer : Peer) (tlsInfo : TlsInfo)
    (certInfo : Option CertificateInfo) : Prop where
  /-- The version and the cipher suite are those of the connection. -/
  agreed : (tlsInfo.tlsVersion, tlsInfo.cipherSuite) = (peer.protocolVersion, peer.cipherSuite)
  /-- No certificate is listed, however many the peer shows. -/
  unlisted : tlsInfo.peerCertificates = []
  /-- The first certificate that the peer shows can be read, and is described. -/
  shown : ∀ endEntity rest, peer.peerCertificates = some (endEntity :: rest) →
    ∃ cert info, crates.parseX509 endEntity = .ok cert ∧ certInfo = some info ∧ Describes cert info
  /-- A peer that shows none is not described. -/
  hidden : peer.peerCertificates = none ∨ peer.peerCertificates = some [] → certInfo = none

/-- Two searches find one of their patterns exactly when it occurs. -/
theorem either_occurs {first second text : Text} (some_first : first ≠ []) (some_second : second ≠ []) :
    ((afterPattern first text).isSome || (afterPattern second text).isSome) = true ↔
      first <:+: text ∨ second <:+: text := by
  rw [Bool.or_eq_true, afterPattern_isSome some_first, afterPattern_isSome some_second]

/-- The size that is found is the one that is said. -/
theorem extractKeySize_iff (publicKey : SubjectPublicKeyInfo) (size : Nat) :
    extractKeySize publicKey = some size ↔ SizeSaid publicKey size := by
  have rsa_iff : ((afterPattern "2.5.8.1.1".toList publicKey.algorithmOid).isSome ||
      (afterPattern "rsa".toList publicKey.algorithmOid).isSome) = true ↔ publicKey.SaysRsa :=
    either_occurs (by decide) (by decide)
  have ec_iff := @either_occurs "ecPublicKey".toList "1.2.840.10045.2.1".toList
    publicKey.algorithmOid (by decide) (by decide)
  have ed25519_iff := @either_occurs "ed25519".toList "1.3.101.112".toList publicKey.algorithmOid
    (by decide) (by decide)
  have ed448_iff : ((afterPattern "ed448".toList publicKey.algorithmOid).isSome ||
      (afterPattern "1.3.101.113".toList publicKey.algorithmOid).isSome) = true ↔
        publicKey.SaysEd448 := either_occurs (by decide) (by decide)
  unfold extractKeySize
  dsimp only
  constructor
  · intro found
    split_ifs at found with rsa ec ed25519 ed448
    · cases parsed : publicKey.parsed with
      | none => simp [parsed] at found
      | some key =>
        cases key with
        | other => simp [parsed] at found
        | rsa modulus =>
          simp only [parsed, Option.some.injEq] at found
          rw [← found]
          exact .rsa (rsa_iff.mp rsa) parsed
    · rw [← Option.some.inj found]
      exact .curve (mt rsa_iff.mpr rsa) (.inl (ec_iff.mp ec))
    · rw [← Option.some.inj found]
      exact .curve (mt rsa_iff.mpr rsa) (.inr (ed25519_iff.mp ed25519))
    · have straight : ¬ publicKey.SaysCurve :=
        not_or.mpr ⟨mt ec_iff.mpr ec, mt ed25519_iff.mpr ed25519⟩
      rw [← Option.some.inj found]
      exact .ed448 (mt rsa_iff.mpr rsa) straight (ed448_iff.mp ed448)
  · intro said
    cases said with
    | rsa said parsed => rw [if_pos (rsa_iff.mpr said), parsed]
    | curve other said =>
      rw [if_neg (mt rsa_iff.mp other)]
      rcases said with ec | ed25519
      · rw [if_pos (ec_iff.mpr ec)]
      · rw [if_pos (ed25519_iff.mpr ed25519), ite_self]
    | ed448 other straight said =>
      obtain ⟨ec, ed25519⟩ := not_or.mp straight
      rw [if_neg (mt rsa_iff.mp other), if_neg (mt ec_iff.mp ec), if_neg (mt ed25519_iff.mp ed25519),
        if_pos (ed448_iff.mpr said)]

/-- A description is the one that is made. -/
theorem describes_iff {cert : X509Certificate} {info : CertificateInfo} :
    Describes cert info ↔ info = describe cert := by
  have names : (describe cert).subjectAltNames = cert.subjectAlternativeName.getD [] := by
    rw [describe]
    cases cert.subjectAlternativeName <;> rfl
  constructor
  · intro said
    obtain ⟨notBefore, notAfter⟩ := Prod.mk.inj said.validity
    obtain ⟨signature, key⟩ := Prod.mk.inj said.algorithms
    have size : info.keySize = (describe cert).keySize :=
      Option.ext fun size => (said.keySize size).trans (extractKeySize_iff cert.publicKey size).symm
    exact CertificateInfo.ext said.subject said.issuer said.serialNumber notBefore notAfter
      (said.subjectAltNames.trans names.symm) size signature key
  · rintro rfl
    exact ⟨rfl, rfl, rfl, rfl, names, extractKeySize_iff cert.publicKey, rfl⟩

/-- The address that is connected to is the first one, and can be reached. -/
theorem firstAddress_ok {network : TlsNetwork} {host : Text} {port : UInt16} {address : Text} :
    firstAddress network host port = .ok address ↔
      ∃ rest, network.lookup host port = some (address :: rest) ∧ network.connects address = true := by
  rw [firstAddress]
  cases network.lookup host port with
  | none => exact iff_of_false nofun nofun
  | some addresses =>
    cases addresses with
    | nil => exact iff_of_false nofun nofun
    | cons first rest =>
      simp only [Option.some.injEq, List.cons.injEq]
      split_ifs with connects
      · constructor
        · intro same
          obtain rfl := Except.ok.inj same
          exact ⟨rest, ⟨rfl, rfl⟩, connects⟩
        · rintro ⟨others, ⟨rfl, rfl⟩, _⟩
          rfl
      · refine iff_of_false nofun ?_
        rintro ⟨others, ⟨rfl, rfl⟩, reached⟩
        exact connects reached

/-- A server name is had where there is one. -/
theorem serverNameFor_ok {host : Text} {name : Name} :
    serverNameFor crates host = .ok name ↔ crates.serverName host = some name := by
  rw [serverNameFor]
  cases crates.serverName host with
  | none => exact iff_of_false nofun nofun
  | some found => simp

/-- A peer is connected to when its handshake goes well. -/
theorem connectPeer_ok {verifier : ServerCertVerifier Name} {name : Name} {peer : Peer} :
    connectPeer verifier name peer = .ok () ↔ handshake verifier [] name peer = true := by
  rw [connectPeer]
  split_ifs with done
  · exact iff_of_true rfl done
  · exact iff_of_false nofun done

/-- What is extracted describes the peer. -/
theorem extracted_iff {peer : Peer} {tlsInfo : TlsInfo} {certInfo : Option CertificateInfo} :
    tlsInfo = extractTlsInfoFromConnection peer ∧
        extractCertInfoFromConnection crates peer = .ok certInfo ↔
      Described crates peer tlsInfo certInfo := by
  constructor
  · rintro ⟨rfl, extracted⟩
    refine ⟨rfl, rfl, fun endEntity rest shown => ?_, fun hidden => ?_⟩
    · rw [extractCertInfoFromConnection, shown] at extracted
      simp only [extractCertificateInfo] at extracted
      cases parsed : crates.parseX509 endEntity with
      | error error =>
        rw [parsed] at extracted
        contradiction
      | ok cert =>
        rw [parsed] at extracted
        exact ⟨cert, describe cert, rfl, (Except.ok.inj extracted).symm, describes_iff.mpr rfl⟩
    · rw [extractCertInfoFromConnection] at extracted
      rcases hidden with hidden | hidden <;> rw [hidden] at extracted <;>
        exact (Except.ok.inj extracted).symm
  · intro described
    obtain ⟨version, suite⟩ := Prod.mk.inj described.agreed
    constructor
    · exact TlsInfo.ext version suite described.unlisted
    · rw [extractCertInfoFromConnection]
      cases certificates : peer.peerCertificates with
      | none => rw [described.hidden (.inl certificates)]
      | some shown =>
        cases shown with
        | nil => rw [described.hidden (.inr certificates)]
        | cons endEntity rest =>
          obtain ⟨cert, info, parsed, same, said⟩ := described.shown endEntity rest certificates
          rw [same, describes_iff.mp said]
          simp only [extractCertificateInfo, parsed]
          rfl

/-- A handshake with a verifier that could be made, for a host. -/
def accepts (verifier : Except TlsError (ServerCertVerifier Name)) (name : Option Name)
    (protocols : List Text) (peer : Peer) : Bool :=
  match verifier, name with
  | .ok verifier, some name => handshake verifier protocols name peer
  | _, _ => false

/-- The handshake of `send_https_request` goes well. -/
def requestAccepts (crates : TlsCrates Anchor Name) (files : Text → Option (List UInt8))
    (verbosity : UInt8) (skipVerify : Bool) (path : Option Text) (host : Text)
    (protocols : List Text) (peer : Peer) : Bool :=
  accepts (requestVerifier crates files verbosity skipVerify path)
    (crates.serverName (unbracketed host)) protocols peer

variable {files : Text → Option (List UInt8)} {verbosity : UInt8} {skipVerify : Bool}
variable {path : Option Text} {protocols : List Text} {peer : Peer}

/-- A handshake that goes well is made with a verifier and for a name. -/
theorem accepts_iff {verifier : Except TlsError (ServerCertVerifier Name)} {name : Option Name} :
    accepts verifier name protocols peer = true ↔
      ∃ made known, verifier = .ok made ∧ name = some known ∧
        handshake made protocols known peer = true := by
  cases verifier with
  | error error => exact iff_of_false Bool.false_ne_true nofun
  | ok made =>
    cases name with
    | none => exact iff_of_false Bool.false_ne_true nofun
    | some known => simp [accepts]

/-- A request is made of a peer exactly when it is authentic and the rest of the handshake goes
well. -/
theorem requestAccepts_iff {host : Text} :
    requestAccepts crates files verbosity skipVerify path host protocols peer = true ↔
      ∃ name, crates.serverName (unbracketed host) = some name ∧
        Authentic crates files path skipVerify name peer.proof ∧
          peer.completes (offeredSchemes crates files path) protocols = true := by
  rw [requestAccepts, accepts_iff]
  constructor
  · rintro ⟨made, name, same, known, done⟩
    obtain ⟨accepted, completes⟩ := (Bool.and_eq_true _ _).mp done
    rw [schemes_of_requestVerifier same] at completes
    exact ⟨name, known, requestTrusts_iff.mp (trusts_iff.mpr ⟨made, same, accepted⟩), completes⟩
  · rintro ⟨name, known, authentic, completes⟩
    obtain ⟨made, same, accepted⟩ :=
      trusts_iff.mp ((@requestTrusts_iff Anchor Name crates files verbosity _ _ _ _).mpr authentic)
    refine ⟨made, name, same, known, (Bool.and_eq_true _ _).mpr ⟨accepted, ?_⟩⟩
    rw [schemes_of_requestVerifier same]
    exact completes

/-- So is the handshake for TLS information. -/
theorem infoAccepts_iff {name : Option Name} :
    accepts (infoVerifier crates files skipVerify path) name protocols peer = true ↔
      ∃ known, name = some known ∧ Authentic crates files path skipVerify known peer.proof ∧
        peer.completes (offeredSchemes crates files path) protocols = true := by
  rw [accepts_iff]
  constructor
  · rintro ⟨made, known, same, named, done⟩
    obtain ⟨accepted, completes⟩ := (Bool.and_eq_true _ _).mp done
    rw [schemes_of_infoVerifier same] at completes
    exact ⟨known, named, infoTrusts_iff.mp (trusts_iff.mpr ⟨made, same, accepted⟩), completes⟩
  · rintro ⟨known, named, authentic, completes⟩
    obtain ⟨made, same, accepted⟩ := trusts_iff.mp (infoTrusts_iff.mpr authentic)
    refine ⟨made, known, same, named, (Bool.and_eq_true _ _).mpr ⟨accepted, ?_⟩⟩
    rw [schemes_of_infoVerifier same]
    exact completes

/-- A host without brackets is taken as it is. -/
theorem unbracketed_plain {host : Text} (plain : host.head? ≠ some '[') : unbracketed host = host :=
  if_neg fun brackets => plain brackets.1

/-- The two handshakes take the same peers, but for bracketed hosts, which are no server names where
the brackets are left on. -/
theorem infoAccepts_iff_requestAccepts {host : Text} :
    accepts (infoVerifier crates files skipVerify path) (crates.serverName host) protocols peer = true ↔
      host.head? ≠ some '[' ∧
        requestAccepts crates files verbosity skipVerify path host protocols peer = true := by
  rw [infoAccepts_iff, requestAccepts_iff]
  constructor
  · rintro ⟨name, known, good⟩
    have plain : host.head? ≠ some '[' := by
      intro bracket
      rw [crates.bracketed host bracket] at known
      contradiction
    rw [unbracketed_plain plain]
    exact ⟨plain, name, known, good⟩
  · rintro ⟨plain, name, known, good⟩
    rw [unbracketed_plain plain] at known
    exact ⟨name, known, good⟩

/-- TLS information is had exactly of a peer that a request would be made of, with whatever `-v`, when
the host is no bracketed address and the certificate can be read; and it says what that peer has agreed
on and the fields of its first certificate. -/
theorem tlsInfo_iff (crates : TlsCrates Anchor Name) (network : TlsNetwork)
    (files : Text → Option (List UInt8)) (host : Text) (port : UInt16) (skipVerify : Bool)
    (path : Option Text) (tlsInfo : TlsInfo) (certInfo : Option CertificateInfo) (verbosity : UInt8) :
    getTlsInfo crates network files host port skipVerify path = .ok (tlsInfo, certInfo) ↔
      ∃ peer, Reaches network host port peer ∧ host.head? ≠ some '[' ∧
        requestAccepts crates files verbosity skipVerify path host [] peer = true ∧
          Described crates peer tlsInfo certInfo := by
  constructor
  · intro had
    obtain ⟨address, found, had⟩ := bind_ok.mp had
    obtain ⟨verifier, made, had⟩ := bind_ok.mp had
    obtain ⟨name, known, had⟩ := bind_ok.mp had
    obtain ⟨done, connected, had⟩ := bind_ok.mp had
    obtain ⟨described, extracted, had⟩ := bind_ok.mp had
    obtain ⟨rfl, rfl⟩ := Prod.mk.inj (Except.ok.inj had)
    obtain ⟨rest, first, connects⟩ := firstAddress_ok.mp found
    have accepted : accepts (infoVerifier crates files skipVerify path) (crates.serverName host) []
        (network.peer address) = true :=
      accepts_iff.mpr ⟨verifier, name, made, serverNameFor_ok.mp known, connectPeer_ok.mp connected⟩
    obtain ⟨plain, request⟩ := (@infoAccepts_iff_requestAccepts Anchor Name crates files verbosity
      skipVerify path [] (network.peer address) host).mp accepted
    exact ⟨network.peer address, ⟨⟨address, rest, first, connects, rfl⟩⟩, plain, request,
      extracted_iff.mp ⟨rfl, extracted⟩⟩
  · rintro ⟨peer, ⟨⟨address, rest, first, connects, rfl⟩⟩, plain, request, described⟩
    obtain ⟨rfl, extracted⟩ := extracted_iff.mpr described
    have accepted := infoAccepts_iff_requestAccepts.mpr ⟨plain, request⟩
    obtain ⟨verifier, name, made, known, done⟩ := accepts_iff.mp accepted
    apply bind_ok.mpr ⟨address, firstAddress_ok.mpr ⟨rest, first, connects⟩, ?_⟩
    apply bind_ok.mpr ⟨verifier, made, ?_⟩
    apply bind_ok.mpr ⟨name, serverNameFor_ok.mpr known, ?_⟩
    apply bind_ok.mpr ⟨(), connectPeer_ok.mpr done, ?_⟩
    exact bind_ok.mpr ⟨certInfo, extracted, rfl⟩

end Described

end Rcurl
