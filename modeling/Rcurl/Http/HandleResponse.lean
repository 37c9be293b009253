import Rcurl.Http.Exchange

/-!
# Handling the last response

`handle_response`: with `-I` the headers are shown, with `-o` the body goes to a file frame by frame,
else it is collected and printed. The ending records the outcome, the bytes left in the output file
and the bytes printed. Timings are not part of it.
-/

namespace Rcurl

open ShellWords (Text)

/-- How a call ends. -/
structure Ending where
  /-- The response, or an error. -/
  outcome : Except HttpError Response
  /-- The content of the `-o` file, when it was opened. -/
  file : Option Bytes := none
  /-- The body printed to the standard output. -/
  printed : Option Bytes := none

/-- An ending with an error and no effect. -/
def Ending.failed (error : HttpError) : Ending := { outcome := .error error }

/-- The download so far. -/
structure Download where
  /-- The bytes in the file. -/
  written : Bytes := []
  /-- The position of the progress bar. -/
  position : Nat := 0
  /-- Every position shown, in order. -/
  positions : List Nat := []

/-- The position after a chunk: the sum of two `u64`, cut at the total. -/
def nextPosition (total position : Nat) (chunk : Bytes) : Nat :=
  min ((position + chunk.length) % 2 ^ 64) total

/-- One chunk written, and the progress moved. -/
def Download.push (total : Nat) (chunk : Bytes) (download : Download) : Download where
  written := download.written ++ chunk
  position := nextPosition total download.position chunk
  positions := download.positions ++ [nextPosition total download.position chunk]

/-- Bytes that fit into the file. -/
def fits (room : Option Nat) (bytes : Bytes) : Bool := room.elim true (bytes.length ≤ ·)

/-- The loop of `download_file_with_progress`: trailers and broken streams end it with an error. -/
def downloadFrames (room : Option Nat) (total : Nat) :
    List BodyFrame → Download → Option HttpError × Download
  | [], download => (none, download)
  | .failure :: _, download => (some .download, download)
  | .trailers _ :: _, download => (some .trailers, download)
  | .data chunk :: frames, download =>
    if fits room (download.written ++ chunk) then
      downloadFrames room total frames (download.push total chunk)
    else (some .writeChunk, { download with
      written := (download.written ++ chunk).take (room.getD 0) })

/-- `incoming.collect()`: the data of every frame, unless the stream breaks. -/
def collectFrames : List BodyFrame → Option Bytes
  | [] => some []
  | .failure :: _ => none
  | .trailers _ :: frames => collectFrames frames
  | .data chunk :: frames => (collectFrames frames).map (chunk ++ ·)

/-- The content length, when it is readable. -/
def declaredLength (response : Response) : Option Nat :=
  ((MultiMap.get .contentLength response.headers).bind HeaderValue.toStr).bind
    (RustText.parseUnsigned 64)

/-- The `-o` branch. -/
def saveBody (world : HopWorld) (path : Text) (response : Response) : Ending :=
  if world.openFile path = false then Ending.failed (.openFile path)
  else
    let finished := downloadFrames world.room ((declaredLength response).getD 0) response.body {}
    { outcome := match finished.1 with
        | some error => .error error
        | none => .ok { response with body := [] }
      file := some finished.2.written }

/-- The branch without `-o`. -/
def printBody (world : HopWorld) (response : Response) : Ending :=
  match collectFrames response.body with
  | none => Ending.failed .collect
  | some bytes =>
    if (declaredLength response).any (1024 * 1024 * 100 < ·) then Ending.failed .binaryOutput
    else
      { outcome :=
          if world.flushes then .ok { response with body := [.data bytes] } else .error .flush
        printed := (Utf8.decode bytes).map fun _ => bytes }

/-- `handle_response`. -/
def handleResponse (world : HopWorld) (cli : Cli) (response : Response) : Ending :=
  if cli.headerOption then
    -- `info!` evaluates its arguments only when it is on.
    if world.infoLogs = true ∧ HeaderMap.legible response.headers = false then
      Ending.failed .illegible
    else { outcome := .ok response }
  else
    match cli.filePathOption with
    | some path => saveBody world path response
    | none => printBody world response

end Rcurl
