import Rcurl.Cli.AppConfig
import Rcurl.Foundation.MultiMap
import Rcurl.Foundation.RustText
import Rcurl.Foundation.Utf8

/-!
# HTTP messages

The types of the `http` crate that the request engine handles: names and values that can only be
built when they are valid, the header map, URIs, requests and responses. A value may hold bytes
that cannot be read back as text; `HeaderValue.toStr` is the one operation that notices.
-/

namespace Rcurl

open ShellWords (Text)

/-- Bytes. -/
abbrev Bytes := List UInt8

/-- The characters of a token: a method or a header name. -/
def isTokenChar (c : Char) : Bool :=
  c.isAlphanum || "!#$%&*+-.^_|~".toList.contains c || c == '\'' || c == Char.ofNat 96

/-- A token. -/
def isToken (text : Text) : Bool := text ≠ [] && text.all isTokenChar

/-- A header name, in lower case. -/
structure HeaderName where
  /-- The letters. -/
  text : Text
  /-- They form a token that fits. -/
  valid : isToken text = true ∧ text.length < 65536
  deriving DecidableEq, Repr

/-- `HeaderName::from_str`. -/
def HeaderName.fromStr (text : Text) : Option HeaderName :=
  if valid : isToken (text.map Char.toLower) = true ∧ (text.map Char.toLower).length < 65536 then
    some { text := text.map Char.toLower, valid }
  else none

/-- `ACCEPT`. -/
def HeaderName.accept : HeaderName := { text := "accept".toList, valid := by decide }

/-- `AUTHORIZATION`. -/
def HeaderName.authorization : HeaderName := { text := "authorization".toList, valid := by decide }

/-- `CONTENT_LENGTH`. -/
def HeaderName.contentLength : HeaderName := { text := "content-length".toList, valid := by decide }

/-- `CONTENT_TYPE`. -/
def HeaderName.contentType : HeaderName := { text := "content-type".toList, valid := by decide }

/-- `COOKIE`. -/
def HeaderName.cookie : HeaderName := { text := "cookie".toList, valid := by decide }

/-- `HOST`. -/
def HeaderName.host : HeaderName := { text := "host".toList, valid := by decide }

/-- `LOCATION`. -/
def HeaderName.location : HeaderName := { text := "location".toList, valid := by decide }

/-- `USER_AGENT`. -/
def HeaderName.userAgent : HeaderName := { text := "user-agent".toList, valid := by decide }

/-- The bytes a header value may hold: no control byte but the tab, anything from 128 on. -/
def isValueByte (byte : UInt8) : Bool := (32 ≤ byte && byte != 127) || byte == 9

/-- The bytes a header value may hold to be read as text. -/
def isVisibleByte (byte : UInt8) : Bool := (32 ≤ byte && byte < 127) || byte == 9

/-- A header value. -/
structure HeaderValue where
  /-- As they stand on the wire. -/
  bytes : Bytes
  /-- They are legal in a field value. -/
  valid : bytes.all isValueByte = true
  deriving DecidableEq, Repr

/-- `HeaderValue::from_bytes`. -/
def HeaderValue.fromBytes (bytes : Bytes) : Option HeaderValue :=
  if valid : bytes.all isValueByte = true then some { bytes, valid } else none

/-- `HeaderValue::from_str`. -/
def HeaderValue.fromStr (text : Text) : Option HeaderValue := HeaderValue.fromBytes (Utf8.encode text)

/-- Every byte is visible ASCII or a tab. -/
def HeaderValue.legible (value : HeaderValue) : Bool := value.bytes.all isVisibleByte

/-- `HeaderValue::to_str`: an error unless every byte is visible. -/
def HeaderValue.toStr (value : HeaderValue) : Option Text :=
  if value.legible then some (value.bytes.map fun byte => Char.ofNat byte.toNat) else none

/-- `HeaderMap`. -/
abbrev HeaderMap := List (HeaderName × HeaderValue)

/-- Every value can be read as text. -/
def HeaderMap.legible (map : HeaderMap) : Bool := map.all (·.2.legible)

/-- The host and port of a URI. Its characters are visible, so that it is a header value. -/
structure Authority where
  /-- In brackets when it is an IPv6 address. -/
  host : Text
  /-- The port, when it is written. -/
  port : Option UInt16
  /-- The host is not empty, and holds visible ASCII only. -/
  visible : host ≠ [] ∧ ∀ c ∈ host, 33 ≤ c.toNat ∧ c.toNat < 127
  deriving DecidableEq, Repr

/-- `hyper::Uri`. -/
structure Uri where
  /-- The scheme, in lower case. -/
  scheme : Option Text
  /-- Missing in the target of a request that names its host elsewhere. -/
  authority : Option Authority
  /-- As it is spelled, with its escapes. -/
  path : Text
  /-- What stands behind `?`, when there is one. -/
  query : Option Text
  deriving DecidableEq, Repr

/-- `Uri::host`. -/
def Uri.host (uri : Uri) : Option Text := uri.authority.map (·.host)

/-- `Uri::port_u16`. -/
def Uri.port (uri : Uri) : Option UInt16 := uri.authority.bind (·.port)

/-- `hyper::Version`. -/
inductive Version where
  | http10 | http11 | http2
  deriving DecidableEq, Repr

/-- One part of a multipart body. -/
structure FormPart where
  /-- The name of the form field. -/
  name : Text
  /-- The file name and the content type of a file part. -/
  file : Option (Text × Text)
  /-- What is sent between the boundaries. -/
  content : Bytes
  deriving DecidableEq, Repr

/-- A request body: bytes, or a form that is laid out with its boundary. -/
inductive RequestBody where
  /-- Bytes as they are. -/
  | bytes (content : Bytes)
  /-- A multipart form. -/
  | form (boundary : Text) (parts : List FormPart)
  deriving DecidableEq, Repr

/-- `Request<Full<Bytes>>`. -/
structure Request where
  /-- A token; it may be of the user's own making. -/
  method : Text
  /-- What is asked for. -/
  uri : Uri
  /-- The version that the client is asked to speak. -/
  version : Version
  /-- The names, in lower case, with their values. -/
  headers : HeaderMap
  /-- Empty when nothing is sent. -/
  body : RequestBody
  deriving DecidableEq, Repr

/-- What a body stream yields. -/
inductive BodyFrame where
  /-- A piece of the content. -/
  | data (bytes : Bytes)
  /-- Headers behind the content. -/
  | trailers (headers : HeaderMap)
  /-- A transport error; nothing follows it. -/
  | failure
  deriving DecidableEq, Repr

/-- `Response`, with the frames its body will yield. -/
structure Response where
  /-- The version that was spoken. -/
  version : Version
  /-- The three digits of the status line, as a number. -/
  status : Nat
  /-- In the order in which they came. -/
  headers : HeaderMap
  /-- What is still to be read. -/
  body : List BodyFrame
  deriving DecidableEq, Repr

/-- `StatusCode::is_redirection`. -/
def Response.isRedirection (response : Response) : Bool :=
  300 ≤ response.status && response.status < 400

end Rcurl
