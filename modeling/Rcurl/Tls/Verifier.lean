import Rcurl.Http.RequestHeaders

/-!
# Whom a TLS connection trusts

`tls::rcurl_cert_verifier`, and the roots of trust that both `send_https_request` and `get_tls_info`
load. The chain of a peer is checked unless `-k` says otherwise; its signature always is. What webpki
decides comes from outside, and so do the certificates.
-/

namespace Rcurl

open RustText (Text)

/-- A certificate in DER. -/
abbrev Der := List UInt8

/-- A public key. -/
inductive PublicKey where
  /-- An RSA key with its modulus. -/
  | rsa (modulus : List UInt8)
  /-- Any other key. -/
  | other
  deriving DecidableEq, Repr

/-- `SubjectPublicKeyInfo`. -/
structure SubjectPublicKeyInfo where
  /-- The algorithm, as `{:?}` writes it. -/
  algorithm : Text
  /-- The identifier of the algorithm, as `{:?}` writes it. -/
  algorithmOid : Text
  /-- The key, when it can be read. -/
  parsed : Option PublicKey
  deriving DecidableEq, Repr

/-- `X509Certificate`. -/
structure X509Certificate where
  /-- Whose certificate it is, as `{}` writes the name. -/
  subject : Text
  /-- Who signed it, as `{}` writes the name. -/
  issuer : Text
  /-- The number that the issuer gave it, as it is written. -/
  serial : Text
  /-- When it begins to be valid, as `{}` writes it. -/
  notBefore : Text
  /-- The last instant in which it is. -/
  notAfter : Text
  /-- The other names of the subject, as `{:?}` writes them, when the extension is there and can be
  read. -/
  subjectAlternativeName : Option (List Text)
  /-- The key that signatures of its owner are checked with. -/
  publicKey : SubjectPublicKeyInfo
  /-- The identifier of the algorithm of the signature, as `{:?}` writes it. -/
  signatureOid : Text
  deriving DecidableEq, Repr

/-- What a peer shows in a handshake. -/
structure PeerProof where
  /-- Its own certificate. -/
  endEntity : Der
  /-- The certificates behind it. -/
  intermediates : List Der
  /-- The stapled status. -/
  ocsp : List UInt8
  /-- The time. -/
  now : Nat
  /-- The handshake is that of TLS 1.3. -/
  tls13 : Bool
  /-- The message that is signed. -/
  message : List UInt8
  /-- What the owner of the certificate made of it. -/
  signature : List UInt8
  deriving DecidableEq, Repr

/-- `ServerCertVerifier`. -/
structure ServerCertVerifier (Name : Type) where
  /-- `verify_server_cert`. -/
  verifyServerCert : Der → List Der → Name → List UInt8 → Nat → Bool
  /-- `verify_tls12_signature`. -/
  verifyTls12Signature : List UInt8 → Der → List UInt8 → Bool
  /-- `verify_tls13_signature`. -/
  verifyTls13Signature : List UInt8 → Der → List UInt8 → Bool
  /-- `supported_verify_schemes`. -/
  supportedVerifySchemes : List UInt16

section Checks

variable {Name : Type} (verifier : ServerCertVerifier Name)

/-- The chain of a peer is good for a name. -/
def ServerCertVerifier.chainGood (name : Name) (proof : PeerProof) : Bool :=
  verifier.verifyServerCert proof.endEntity proof.intermediates name proof.ocsp proof.now

/-- The signature of a peer is good. -/
def ServerCertVerifier.signatureGood (proof : PeerProof) : Bool :=
  if proof.tls13 then verifier.verifyTls13Signature proof.message proof.endEntity proof.signature
  else verifier.verifyTls12Signature proof.message proof.endEntity proof.signature

/-- A handshake takes a peer for what it says. -/
def ServerCertVerifier.accepts (name : Name) (proof : PeerProof) : Bool :=
  verifier.chainGood name proof && verifier.signatureGood proof

end Checks

/-- What the TLS crates do. -/
structure TlsCrates (Anchor Name : Type) where
  /-- `rustls_pemfile::certs`; an item is missing where the file is malformed. -/
  certs : List UInt8 → List (Option Der)
  /-- `RootCertStore::add`. -/
  anchor : Der → Option Anchor
  /-- `TLS_SERVER_ROOTS`. -/
  tlsServerRoots : List Anchor
  /-- `WebPkiServerVerifier`, for roots of trust. -/
  webPki : List Anchor → ServerCertVerifier Name
  /-- `ServerName::try_from`. -/
  serverName : Text → Option Name
  /-- `parse_x509_certificate`. -/
  parseX509 : Der → Except Text X509Certificate
  /-- No chain leads to no root. -/
  unanchored : ∀ name proof, (webPki []).chainGood name proof = false
  /-- A text that begins with a bracket is no server name. -/
  bracketed : ∀ text, text.head? = some '[' → serverName text = none

/-- The ways to a TLS connection fail. -/
inductive TlsError where
  /-- The host cannot be looked up. -/
  | lookup
  /-- The host has no address. -/
  | resolve (host : Text) (port : UInt16)
  /-- The address cannot be reached. -/
  | connect
  /-- The file with the roots cannot be opened. -/
  | open (path : Text)
  /-- It is malformed. -/
  | pem
  /-- It holds a certificate that is no root. -/
  | badRoot
  /-- A verifier is asked for and no root was loaded. -/
  | noRootAnchors
  /-- The host is no server name. -/
  | serverName (host : Text)
  /-- The peer is not taken, or gives up. -/
  | handshake
  /-- The certificate of the peer cannot be read. -/
  | certificate (error : Text)
  deriving DecidableEq, Repr

/-- The texts of the errors that are made here. -/
def TlsError.text : TlsError → Option Text
  | .resolve host port =>
    some ("Failed to resolve address: ".toList ++ host ++ ':' :: RustText.decimal port.toNat)
  | .serverName host => some ("Invalid server name: ".toList ++ host)
  | .certificate error => some ("Failed to parse certificate: ".toList ++ error)
  | .lookup | .connect | .open _ | .pem | .badRoot | .noRootAnchors | .handshake => none

section Verifiers

variable {Anchor Name : Type} (crates : TlsCrates Anchor Name)

/-- One certificate is added to the roots. -/
def addRoot (item : Option Der) : Except TlsError Anchor :=
  match item with
  | none => .error .pem
  | some der =>
    match crates.anchor der with
    | none => .error .badRoot
    | some anchor => .ok anchor

/-- `root_store`: the certificates of the file, or those that are built in. -/
def rootStore (files : Text → Option (List UInt8)) (path : Option Text) :
    Except TlsError (List Anchor) :=
  match path with
  | none => .ok crates.tlsServerRoots
  | some path =>
    match files path with
    | none => .error (.open path)
    | some content => (crates.certs content).mapM (addRoot crates)

/-- `RcurlCertVerifier`. -/
structure RcurlCertVerifier (Name : Type) where
  /-- The one that decides, unless it is not asked. -/
  verifier : ServerCertVerifier Name
  /-- `-v`, on which only what is logged depends. -/
  verbosity : UInt8
  /-- `-k`. -/
  skipValidate : Bool

/-- `RcurlCertVerifier::new`: without roots there is no verifier behind it. -/
def RcurlCertVerifier.new (verbosity : UInt8) (skipValidate : Bool) (roots : List Anchor) :
    Except TlsError (RcurlCertVerifier Name) :=
  if roots.isEmpty then .error .noRootAnchors
  else .ok { verifier := crates.webPki roots, verbosity, skipValidate }

/-- `impl ServerCertVerifier for RcurlCertVerifier`. -/
def RcurlCertVerifier.serverCertVerifier (verifier : RcurlCertVerifier Name) :
    ServerCertVerifier Name where
  verifyServerCert endEntity intermediates name ocsp now :=
    if verifier.skipValidate then true
    else verifier.verifier.verifyServerCert endEntity intermediates name ocsp now
  verifyTls12Signature := verifier.verifier.verifyTls12Signature
  verifyTls13Signature := verifier.verifier.verifyTls13Signature
  supportedVerifySchemes := verifier.verifier.supportedVerifySchemes

/-- The verifier of `send_https_request`. -/
def requestVerifier (files : Text → Option (List UInt8)) (verbosity : UInt8) (skipVerify : Bool)
    (path : Option Text) : Except TlsError (ServerCertVerifier Name) := do
  let roots ← rootStore crates files path
  let verifier ← RcurlCertVerifier.new crates verbosity skipVerify roots
  return verifier.serverCertVerifier

/-- The verifier of `get_tls_info`. -/
def infoVerifier (files : Text → Option (List UInt8)) (skipVerify : Bool) (path : Option Text) :
    Except TlsError (ServerCertVerifier Name) := do
  let roots ← rootStore crates files path
  if skipVerify then
    let verifier ← RcurlCertVerifier.new crates 0 true roots
    return verifier.serverCertVerifier
  else return crates.webPki roots

/-- The host without the brackets of an IPv6 address, as hyper-rustls takes it. -/
def unbracketed (host : Text) : Text :=
  if host.head? = some '[' ∧ host.getLast? = some ']' then host.tail.dropLast else host

/-- The signature schemes that are offered. -/
def offeredSchemes (files : Text → Option (List UInt8)) (path : Option Text) : List UInt16 :=
  match rootStore crates files path with
  | .ok roots => (crates.webPki roots).supportedVerifySchemes
  | .error _ => []

/-- A verifier that could be made takes a peer for the host. -/
def trusts (verifier : Except TlsError (ServerCertVerifier Name)) (name : Option Name)
    (proof : PeerProof) : Bool :=
  match verifier, name with
  | .ok verifier, some name => verifier.accepts name proof
  | _, _ => false

end Verifiers

section Trust

variable {Anchor Name : Type} {crates : TlsCrates Anchor Name}
variable {files : Text → Option (List UInt8)} {verbosity : UInt8} {skipVerify : Bool}
variable {path : Option Text}

/-- A peer that is who it says it is: there are roots of trust, its signature is good, and, unless that
is not asked for, so is its chain. -/
structure Authentic (crates : TlsCrates Anchor Name) (files : Text → Option (List UInt8))
    (path : Option Text) (skipVerify : Bool) (name : Name) (proof : PeerProof) : Prop where
  /-- The roots are loaded, and they are some. -/
  anchored : ∃ roots, rootStore crates files path = .ok roots ∧ roots ≠ [] ∧
    (crates.webPki roots).signatureGood proof = true ∧
      (skipVerify = false → (crates.webPki roots).chainGood name proof = true)

/-- The verifier behind a wrapper decides, but for what is skipped. -/
theorem accepts_wrapped {verifier : RcurlCertVerifier Name} {name : Name} {proof : PeerProof} :
    verifier.serverCertVerifier.accepts name proof = true ↔
      verifier.verifier.signatureGood proof = true ∧
        (verifier.skipValidate = false → verifier.verifier.chainGood name proof = true) := by
  have chain : verifier.serverCertVerifier.chainGood name proof =
      if verifier.skipValidate then true else verifier.verifier.chainGood name proof := rfl
  have signature : verifier.serverCertVerifier.signatureGood proof =
      verifier.verifier.signatureGood proof := rfl
  rw [ServerCertVerifier.accepts, chain, signature]
  cases verifier.skipValidate with
  | true => simp
  | false => simp [and_comm]

/-- A wrapper is made exactly when there are roots. -/
theorem new_eq_ok {roots : List Anchor} {verifier : RcurlCertVerifier Name} :
    RcurlCertVerifier.new crates verbosity skipVerify roots = .ok verifier ↔
      roots ≠ [] ∧ verifier = { verifier := crates.webPki roots, verbosity,
                                skipValidate := skipVerify } := by
  rw [RcurlCertVerifier.new]
  cases roots with
  | nil => simp
  | cons anchor rest => simp [eq_comm]

/-- A verifier that takes a peer could be made. -/
theorem trusts_iff {verifier : Except TlsError (ServerCertVerifier Name)} {name : Name}
    {proof : PeerProof} : trusts verifier (some name) proof = true ↔
      ∃ made, verifier = .ok made ∧ made.accepts name proof = true := by
  cases verifier with
  | error error => exact iff_of_false Bool.false_ne_true nofun
  | ok made => simp [trusts]

/-- The verifier of a request is a wrapper for the roots that are loaded, which are some. -/
theorem requestVerifier_ok {made : ServerCertVerifier Name} :
    requestVerifier crates files verbosity skipVerify path = .ok made ↔
      ∃ roots, rootStore crates files path = .ok roots ∧ roots ≠ [] ∧
        made = RcurlCertVerifier.serverCertVerifier
          { verifier := crates.webPki roots, verbosity, skipValidate := skipVerify } := by
  constructor
  · intro same
    obtain ⟨roots, loaded, wrapped⟩ := bind_ok.mp same
    obtain ⟨verifier, new, returned⟩ := bind_ok.mp wrapped
    obtain ⟨anchored, rfl⟩ := new_eq_ok.mp new
    exact ⟨roots, loaded, anchored, (Except.ok.inj returned).symm⟩
  · rintro ⟨roots, loaded, anchored, rfl⟩
    exact bind_ok.mpr ⟨roots, loaded, bind_ok.mpr ⟨_, new_eq_ok.mpr ⟨anchored, rfl⟩, rfl⟩⟩

/-- Requests go to authentic peers: the verifier of a request takes a peer for a name exactly when the
peer is authentic. -/
theorem requestTrusts_iff {name : Name} {proof : PeerProof} :
    trusts (requestVerifier crates files verbosity skipVerify path) (some name) proof = true ↔
      Authentic crates files path skipVerify name proof := by
  rw [trusts_iff]
  constructor
  · rintro ⟨made, same, accepted⟩
    obtain ⟨roots, loaded, anchored, rfl⟩ := requestVerifier_ok.mp same
    obtain ⟨signature, chain⟩ := accepts_wrapped.mp accepted
    exact ⟨⟨roots, loaded, anchored, signature, chain⟩⟩
  · rintro ⟨⟨roots, loaded, anchored, signature, chain⟩⟩
    exact ⟨_, requestVerifier_ok.mpr ⟨roots, loaded, anchored, rfl⟩,
      accepts_wrapped.mpr ⟨signature, chain⟩⟩

/-- TLS information is given of the same peers, although an empty store of roots fails later there. -/
theorem infoTrusts_iff {name : Name} {proof : PeerProof} :
    trusts (infoVerifier crates files skipVerify path) (some name) proof = true ↔
      Authentic crates files path skipVerify name proof := by
  cases skipVerify with
  | true =>
    have same : infoVerifier crates files true path = requestVerifier crates files 0 true path := rfl
    rw [same]
    exact requestTrusts_iff
  | false =>
    rw [trusts_iff]
    constructor
    · rintro ⟨made, same, accepted⟩
      obtain ⟨roots, loaded, returned⟩ := bind_ok.mp same
      obtain rfl := Except.ok.inj returned
      obtain ⟨chain, signature⟩ := (Bool.and_eq_true _ _).mp accepted
      refine ⟨⟨roots, loaded, ?_, signature, fun _ => chain⟩⟩
      rintro rfl
      rw [crates.unanchored] at chain
      contradiction
    · rintro ⟨⟨roots, loaded, _, signature, chain⟩⟩
      refine ⟨crates.webPki roots, bind_ok.mpr ⟨roots, loaded, rfl⟩, ?_⟩
      exact (Bool.and_eq_true _ _).mpr ⟨chain rfl, signature⟩

/-- Requests offer the schemes of webpki. -/
theorem schemes_of_requestVerifier {made : ServerCertVerifier Name}
    (same : requestVerifier crates files verbosity skipVerify path = .ok made) :
    made.supportedVerifySchemes = offeredSchemes crates files path := by
  obtain ⟨roots, loaded, _, rfl⟩ := requestVerifier_ok.mp same
  rw [offeredSchemes, loaded]
  rfl

/-- So does the handshake for TLS information. -/
theorem schemes_of_infoVerifier {made : ServerCertVerifier Name}
    (same : infoVerifier crates files skipVerify path = .ok made) :
    made.supportedVerifySchemes = offeredSchemes crates files path := by
  cases skipVerify with
  | true => exact @schemes_of_requestVerifier Anchor Name crates files 0 true path made same
  | false =>
    obtain ⟨roots, loaded, returned⟩ := bind_ok.mp same
    obtain rfl := Except.ok.inj returned
    rw [offeredSchemes, loaded]

end Trust

end Rcurl
