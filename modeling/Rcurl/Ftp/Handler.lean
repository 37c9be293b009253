import Rcurl.Foundation.Session
import Rcurl.Http.Message

/-!
# FTP requests

`ftp::handler`: a session of fallible steps. It connects, upgrades to TLS for `ftps`, logs in with
`-u` or the credentials of the URL, changes the directory, sets the binary type, and then stores a
file, sends a `SITE` command or lists the directory. Two replies are thrown away, that of `STOR` and
that of the write to the `-o` file; a refused type is an assertion failure.
-/

namespace Rcurl

open ShellWords (Text)
open Session (Program)

/-- The steps of a session, at the server and in the local file system. -/
inductive FtpStep where
  /-- `RustlsFtpStream::connect`. -/
  | connect (host : Text) (port : UInt16)
  /-- `into_secure`. -/
  | intoSecure (host : Text)
  /-- `login`. -/
  | login (user password : Text)
  /-- `cwd`. -/
  | cwd (path : Text)
  /-- `transfer_type`, binary. -/
  | transferType
  /-- `File::open`, with the content it leads to. -/
  | openFile (path : Text)
  /-- `metadata` of the open file. -/
  | metadata (path : Text)
  /-- `put_file`, the whole content. -/
  | putFile (name : Text) (content : Bytes)
  /-- `site`. -/
  | site (quote : Text)
  /-- `list`. -/
  | list
  /-- `OpenOptions::open` of the output file, created and truncated. -/
  | openOutput (path : Text)
  /-- `write_all` to the output file. -/
  | writeAll (path : Text) (content : Bytes)
  deriving DecidableEq, Repr

/-- What a step carries back: the content of a file, the lines of a listing. -/
abbrev FtpStep.Payload : FtpStep → Type
  | .openFile _ => Bytes
  | .list => List Text
  | .connect _ _ | .intoSecure _ | .login _ _ | .cwd _ | .transferType | .metadata _ | .putFile _ _
  | .site _ | .openOutput _ | .writeAll _ _ => Unit

/-- The ways an FTP request fails. -/
inductive FtpError where
  /-- No URL was given. -/
  | urlRequired
  /-- The URL is no URI. -/
  | uri
  /-- The URI has no host. -/
  | hostMissing
  /-- The server cannot be reached. -/
  | connect
  /-- The connection cannot be made secure. -/
  | secure
  /-- `-u` has no colon. -/
  | userData
  /-- The login with `-u` is refused. -/
  | login
  /-- The URL does not parse. -/
  | url
  /-- The URL has no password. -/
  | passwordEmpty
  /-- The login with the credentials of the URL is refused. -/
  | urlLogin
  /-- The directory is refused. -/
  | cwd
  /-- The file cannot be opened, or its metadata cannot be read. -/
  | readFile
  /-- The path has no last component. -/
  | fileName
  /-- The `SITE` command is refused. -/
  | site
  /-- The directory cannot be listed. -/
  | list
  /-- The range does not parse, or lies outside the listing. -/
  | range
  /-- The output file cannot be opened. -/
  | openOutput
  deriving DecidableEq, Repr

/-- The texts the code gives to its own errors; the others are the libraries'. -/
def FtpError.text : FtpError → Option Text
  | .urlRequired => some "URL is required".toList
  | .hostMissing => some []
  | .userData => some "User data error".toList
  | .login => some "Login error".toList
  | .passwordEmpty => some "Password is empty!".toList
  | .urlLogin => some "Login error with credentials from URL".toList
  | .fileName => some "Can not find file name!".toList
  | .list => some "Command failed, error:".toList
  | .uri | .connect | .secure | .url | .cwd | .readFile | .site | .range | .openOutput => none

/-- How a session breaks off. -/
inductive FtpFault where
  /-- With an error. -/
  | error (error : FtpError)
  /-- With a panic. -/
  | panicked
  deriving DecidableEq, Repr

/-- The parsers of the `url` and `hyper` crates that the session uses. -/
structure FtpUrls (Url : Type) where
  /-- `str::parse` at `hyper::Uri`. -/
  toUri : Text → Option Uri
  /-- `Url::parse`. -/
  parse : Text → Option Url
  /-- `Url::username`. -/
  username : Url → Text
  /-- `Url::password`. -/
  password : Url → Option Text

/-- `http_range_header`: `parse_range_header`, then `validate` against a length. -/
structure RangeHeader where
  /-- The inclusive ranges of a header, when they can all be satisfied. -/
  validate : Text → Nat → Option (List (Nat × Nat))
  /-- There is at least one. -/
  some_range : ∀ {text length ranges}, validate text length = some ranges → ranges ≠ []
  /-- They lie inside, where there is something. -/
  inside : ∀ {text length ranges}, 0 < length → validate text length = some ranges →
    ∀ range ∈ ranges, range.1 ≤ range.2 ∧ range.2 < length
  /-- Where there is nothing, each is from 0 to 0. -/
  nothing : ∀ {text ranges}, validate text 0 = some ranges → ∀ range ∈ ranges, range = (0, 0)

/-- A session. -/
abbrev FtpProgram := Program FtpStep FtpStep.Payload FtpFault

/-- Replies to the steps; no step is issued twice in a session. -/
abbrev FtpWorld := Session.Replies FtpStep.Payload

/-- A step that `?` is applied to. -/
def attemptStep (step : FtpStep) (error : FtpError) : FtpProgram step.Payload :=
  Program.demand step (.error error)

/-- A value that `?` is applied to. -/
def attemptValue {α : Type} (value : Option α) (error : FtpError) : FtpProgram α :=
  Program.require value (.error error)

/-- Logging in with a user and a password around the first colon. -/
def loginWith (authority : Text) : FtpProgram Unit := do
  let parts ← attemptValue (RustText.splitTwo ':' authority) .userData
  attemptStep (.login parts.1 parts.2) .login

section Handler

variable {Url : Type}

/-- Logging in with the credentials of the URL. -/
def loginFromUrl (urls : FtpUrls Url) (text : Text) : FtpProgram Unit := do
  let url ← attemptValue (urls.parse text) .url
  let password ← attemptValue (urls.password url) .passwordEmpty
  attemptStep (.login (urls.username url) password) .urlLogin

/-- The login of a session: `-u` first, else the URL. -/
def ftpLogin (urls : FtpUrls Url) (cli : Cli) (text : Text) (uri : Uri) : FtpProgram Unit :=
  match cli.authorityOption with
  | some authority => loginWith authority
  | none => if uri.authority.isSome then loginFromUrl urls text else pure ()

/-- The upgrade of a session. -/
def ftpUpgrade (scheme host : Text) : FtpProgram Unit :=
  if scheme = "ftps".toList then attemptStep (.intoSecure host) .secure else pure ()

/-- `ftp_request` up to the directory. -/
def openSession (urls : FtpUrls Url) (cli : Cli) (scheme : Text) : FtpProgram Unit := do
  let text ← attemptValue cli.url .urlRequired
  let uri ← attemptValue (urls.toUri text) .uri
  let host ← attemptValue uri.host .hostMissing
  attemptStep (.connect host (uri.port.getD 21)) .connect
  ftpUpgrade scheme host
  ftpLogin urls cli text uri
  attemptStep (.cwd uri.path) .cwd

/-- One range cut out of the listing: the code takes the last position for the end. -/
def sliceRange (item : Bytes) (range : Nat × Nat) : Option Bytes :=
  if range.1 ≤ range.2 ∧ range.2 ≤ item.length then some ((item.take range.2).drop range.1) else none

/-- The range header of `-r`. -/
def rangeHeaderText (range : Text) : Text := "bytes=".toList ++ range

/-- The listing, or the ranges of it that are cut out; a bad slice panics. -/
def cutRanges (ranges : RangeHeader) (cli : Cli) (item : Bytes) : FtpProgram Bytes :=
  match cli.rangeOption with
  | none => pure item
  | some range => do
    let list ← attemptValue (ranges.validate (rangeHeaderText range) item.length) .range
    let slices ← Program.require (list.mapM (sliceRange item)) .panicked
    pure slices.flatten

/-- `output`: to the file, whatever becomes of the write, or else to the standard output. The value
is what is printed. -/
def output (ranges : RangeHeader) (cli : Cli) (item : Bytes) : FtpProgram (Option Bytes) := do
  let item ← cutRanges ranges cli item
  match cli.filePathOption with
  | none => pure (some item)
  | some path => do
    attemptStep (.openOutput path) .openOutput
    Program.ignore (.writeAll path item)
    pure none

/-- The upload: the file, its name, and a `STOR` whose reply is thrown away. -/
def upload (path : Text) : FtpProgram (Option Bytes) := do
  let content ← attemptStep (.openFile path) .readFile
  attemptStep (.metadata path) .readFile
  let name ← attemptValue (RustText.fileName path) .fileName
  Program.ignore (.putFile name content)
  pure none

/-- The bytes of a listing: its lines with line ends between them. -/
def listing (lines : List Text) : Bytes := Utf8.encode (List.intercalate ['\n'] lines)

/-- What a session is for. -/
def transfer (ranges : RangeHeader) (cli : Cli) : FtpProgram (Option Bytes) :=
  match cli.uploadfileOption, cli.quoteOption with
  | some path, _ => upload path
  | none, some quote => do
    attemptStep (.site quote) .site
    pure none
  | none, none => do
    let lines ← attemptStep .list .list
    output ranges cli (listing lines)

/-- `ftp_request`. -/
def ftpRequest (urls : FtpUrls Url) (ranges : RangeHeader) (cli : Cli) (scheme : Text) :
    FtpProgram (Option Bytes) := do
  openSession urls cli scheme
  Program.demand FtpStep.transferType FtpFault.panicked
  transfer ranges cli

end Handler

end Rcurl
