import Rcurl.Http.Message

/-!
# Building a request

`http::handler::build_request`: the method, the headers and the body that the options ask for, built
again for every hop. Files, the guessed content type of a file name, the boundary of a form and the
log filter come from outside.
-/

namespace Rcurl

open ShellWords (Text)

/-- The ways a request fails. -/
inductive HttpError where
  /-- No URL was given. -/
  | urlRequired
  /-- The URL of the command line does not parse. -/
  | initialUrl
  /-- A URL is no URI. -/
  | uri
  /-- A text is no header value. -/
  | headerValue (text : Text)
  /-- A text is no header name. -/
  | headerName (text : Text)
  /-- A header entry has no colon. -/
  | headerEntry (entry : Text)
  /-- A form entry has no equals sign. -/
  | formData
  /-- A path has no last component. -/
  | fileName
  /-- A file cannot be read. -/
  | readFile (path : Text)
  /-- A consumed header map names no key. -/
  | keyNull
  /-- The method is no token. -/
  | method (text : Text)
  /-- A header value cannot be read as text. -/
  | illegible
  /-- The TLS information cannot be had. -/
  | tlsInfo
  /-- The roots of trust cannot be loaded. -/
  | certificate
  /-- The exchange took too long. -/
  | timedOut
  /-- The exchange failed. -/
  | execute
  /-- The target of a redirect cannot be resolved. -/
  | join
  /-- A redirect has no target. -/
  | missingLocation
  /-- There were too many redirects. -/
  | tooManyRedirects
  /-- The output file cannot be opened. -/
  | openFile (path : Text)
  /-- The body broke while it was downloaded. -/
  | download
  /-- The body had trailers while it was downloaded. -/
  | trailers
  /-- A chunk cannot be written. -/
  | writeChunk
  /-- The body broke while it was collected. -/
  | collect
  /-- The body is too large for a terminal. -/
  | binaryOutput
  /-- The standard output cannot be flushed. -/
  | flush
  deriving DecidableEq, Repr

/-- The texts the code gives to its own errors; the others are the libraries'. -/
def HttpError.text : HttpError → Option Text
  | .urlRequired => some "URL is required".toList
  | .initialUrl => some "Failed to parse initial URL".toList
  | .headerEntry entry => some ("header error: ".toList ++ '\'' :: (entry ++ ['\'']))
  | .formData => some "form data error".toList
  | .fileName => some "Can not get the name of uploading file.".toList
  | .keyNull => some "Key is null".toList
  | .timedOut => some "Request timed out after 30 seconds".toList
  | .execute => some "Failed to execute request".toList
  | .missingLocation => some "Redirect response missing 'location' header".toList
  | .tooManyRedirects => some "Exceeded maximum number of redirects (10)".toList
  | .openFile path => some ("Failed to open or create file: ".toList ++ path)
  | .download | .trailers => some "Error while downloading file stream".toList
  | .writeChunk => some "Error writing chunk to file".toList
  | .binaryOutput => some "Binary output can mess up your terminal...".toList
  | .uri | .headerValue _ | .headerName _ | .readFile _ | .method _ | .illegible | .tlsInfo
  | .certificate | .join | .collect | .flush => none

/-- What building a request takes from outside. -/
structure BuildWorld where
  /-- `std::fs::read`. -/
  readFile : Text → Option Bytes
  /-- `mime_guess::from_path`, its first guess. -/
  mimeOf : Text → Option Text
  /-- The boundary of a new form. -/
  boundary : Text
  /-- The installed log filter lets `debug!` through: with `-v` it does, unless `RUST_LOG` says
  otherwise. -/
  debugLogs : Bool

/-- `mime::APPLICATION_OCTET_STREAM`. -/
def octetStream : Text := "application/octet-stream".toList

/-- A text as a header value, inserted under a name. -/
def insertStr (name : HeaderName) (text : Text) (map : HeaderMap) : Except HttpError HeaderMap :=
  match HeaderValue.fromStr text with
  | some value => .ok (MultiMap.insert name value map)
  | none => .error (.headerValue text)

/-- The method: the later options win. -/
def requestMethod (cli : Cli) : Text :=
  let method := "GET".toList
  let method := if cli.bodyOption.isSome then "POST".toList else method
  let method := if cli.uploadfileOption.isSome then "PUT".toList else method
  let method := cli.methodOption.getD method
  let method := if cli.formOption ≠ [] then "POST".toList else method
  if cli.headerOption then "HEAD".toList else method

/-- The user agent sent by default. -/
def defaultUserAgent : Text := "rcurl/0.0.35".toList

/-- The content type of `-d`, before any other header. -/
def dataHeaders (cli : Cli) : Except HttpError HeaderMap :=
  if cli.bodyOption.isSome then
    insertStr .contentType "application/x-www-form-urlencoded".toList []
  else .ok []

/-- The headers before the body and the `-H` entries are looked at. -/
def baseHeaders (cli : Cli) : Except HttpError HeaderMap := do
  let map ← dataHeaders cli
  let map ← insertStr .accept "*/*".toList map
  let map ← insertStr .userAgent (cli.userAgentOption.getD defaultUserAgent) map
  match cli.cookieOption with
  | some cookie => insertStr .cookie cookie map
  | none => .ok map

/-- The part of one `-F` entry. Of the path behind `@`, every other `@` is dropped and only the
last component is opened. -/
def formPart (world : BuildWorld) (entry : Text) : Except HttpError FormPart :=
  match RustText.splitTwo '=' entry with
  | none => .error .formData
  | some (name, value) =>
    if value.head? = some '@' then
      let filePath := value.filter (· ≠ '@')
      match RustText.fileName filePath with
      | none => .error .fileName
      | some path =>
        match world.readFile path with
        | none => .error (.readFile path)
        | some content =>
          .ok { name, file := some (path, (world.mimeOf filePath).getD octetStream), content }
    else .ok { name, file := none, content := Utf8.encode value }

/-- What the body decides: headers given to the builder at once, the map, and the body. -/
structure Prepared where
  /-- Headers the builder has already. -/
  builder : HeaderMap
  /-- The map that is still being filled. -/
  map : HeaderMap
  /-- The body. -/
  body : RequestBody

/-- The body: a form, else the data, else the file to upload, else nothing. -/
def prepareBody (world : BuildWorld) (cli : Cli) (map : HeaderMap) : Except HttpError Prepared :=
  if cli.formOption ≠ [] then do
    let builder ← insertStr .contentType
      ("multipart/form-data; boundary=".toList ++ world.boundary) []
    let parts ← cli.formOption.mapM (formPart world)
    .ok { builder, map, body := .form world.boundary parts }
  else
    match cli.bodyOption, cli.uploadfileOption with
    | some body, _ => .ok { builder := [], map, body := .bytes (Utf8.encode body) }
    | none, some path =>
      match world.readFile path with
      | none => .error (.readFile path)
      | some content => do
        let map ← insertStr .contentType ((world.mimeOf path).getD octetStream) map
        .ok { builder := [], map, body := .bytes content }
    | none, none => .ok { builder := [], map, body := .bytes [] }

/-- One `-H` entry: the name before the first colon, the value behind it. -/
def addHeader (map : HeaderMap) (entry : Text) : Except HttpError HeaderMap :=
  match RustText.splitTwo ':' entry with
  | none => .error (.headerEntry entry)
  | some (name, value) =>
    match HeaderName.fromStr name with
    | none => .error (.headerName name)
    | some name => insertStr name (RustText.trimStart value) map

/-- One entry of the consumed map goes to the builder. -/
def giveHeader (builder : HeaderMap) (entry : Option HeaderName × HeaderValue) :
    Except HttpError HeaderMap :=
  match entry.1 with
  | none => .error .keyNull
  | some name => .ok (MultiMap.append name entry.2 builder)

/-- The request the builder makes; the form branch has set its method once more. -/
def finishRequest (cli : Cli) (uri : Uri) (headers : HeaderMap) (body : RequestBody) : Request where
  method := if cli.formOption ≠ [] then "POST".toList else requestMethod cli
  uri := uri
  version := if cli.http2PriorKnowledge then .http2 else .http11
  headers := headers
  body := body

/-- `build_request` up to the finished request. -/
def assembleRequest (world : BuildWorld) (cli : Cli) (uri : Uri) : Except HttpError Request := do
  let map ← baseHeaders cli
  let prepared ← prepareBody world cli map
  let map ← cli.headers.foldlM addHeader prepared.map
  let headers ← (MultiMap.intoIter map).foldlM giveHeader prepared.builder
  if isToken (requestMethod cli) then .ok (finishRequest cli uri headers prepared.body)
  else .error (.method (requestMethod cli))

/-- The log blocks read every header as text; `debug!` evaluates its arguments when it is on. -/
def logHeaders (world : BuildWorld) (cli : Cli) (headers : HeaderMap) : Except HttpError Unit :=
  if cli.verbosity ≥ 1 ∧ world.debugLogs = true ∧ HeaderMap.legible headers = false then
    .error .illegible
  else .ok ()

/-- `build_request`. -/
def buildRequest (world : BuildWorld) (cli : Cli) (uri : Uri) : Except HttpError Request := do
  let request ← assembleRequest world cli uri
  logHeaders world cli request.headers
  .ok request

end Rcurl
