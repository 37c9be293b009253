import Rcurl.Cli.AppConfig
import Rcurl.Foundation.PrettyJson
import Rcurl.Foundation.Recency
import Rcurl.Foundation.Utf8

/-!
# The history file

`history::storage`: the file `~/.rcurl/rcurl.req` holds a JSON array of commands. `save_request`
reads it whole, moves or puts the command in front, and writes the file again. The file system is a
value: a directory that may be missing, a file that may be missing, its bytes, and whether they
may be read. The JSON library is a parameter with its round trip.
-/

namespace Rcurl

open ShellWords (Text)

/-- `HistoryEntry`. -/
structure HistoryEntry where
  /-- The recorded command line. -/
  command : Text
  /-- The parsed command line, marked `#[serde(skip)]`. -/
  cli : Option Cli
  deriving DecidableEq, Repr

/-- An entry as a file holds it: the skipped field reads as its default. -/
def HistoryEntry.stored (entry : HistoryEntry) : HistoryEntry := { entry with cli := none }

/-- `serde_json` at `Vec<HistoryEntry>`. -/
structure HistoryJson where
  /-- `to_string_pretty`; `none` is an error. -/
  toStringPretty : List HistoryEntry → Option Text
  /-- `from_str`; `none` is an error. -/
  fromStr : Text → Option (List HistoryEntry)
  /-- A written vector is read back, but for the skipped field. -/
  readsBack : ∀ {entries : List HistoryEntry} {text : Text},
    toStringPretty entries = some text → fromStr text = some (entries.map HistoryEntry.stored)

/-- A JSON text that is cut short is an error. -/
def HistoryJson.RefusesPrefixes (json : HistoryJson) : Prop :=
  ∀ (entries : List HistoryEntry) (text part more : Text), json.toStringPretty entries = some text →
    part ++ more = text → more ≠ [] → json.fromStr part = none

/-- Commands as the entries that are read for them. -/
def entriesOf (commands : List Text) : List HistoryEntry :=
  commands.map fun command => { command, cli := none }

/-- The layout `to_string_pretty` gives history entries, read back by its own reader. -/
def prettyHistory : HistoryJson where
  toStringPretty entries := some (PrettyJson.write "command".toList (entries.map (·.command)))
  fromStr text := (PrettyJson.read "command".toList text).map entriesOf
  readsBack := by
    intro entries text written
    rw [← Option.some.inj written, PrettyJson.read_write, Option.map_some, entriesOf,
      List.map_map]
    rfl

@[simp] theorem prettyHistory_toStringPretty (entries : List HistoryEntry) :
    prettyHistory.toStringPretty entries =
      some (PrettyJson.write "command".toList (entries.map (·.command))) := rfl

@[simp] theorem prettyHistory_fromStr (text : Text) :
    prettyHistory.fromStr text = (PrettyJson.read "command".toList text).map entriesOf := rfl

/-- The pretty layout refuses texts that are cut short. -/
theorem prettyHistory_refuses : prettyHistory.RefusesPrefixes := by
  intro entries text part more written whole longer
  have shape := whole.trans (Option.some.inj written).symm
  have refused := PrettyJson.read_prefix "command".toList (entries.map (·.command)) longer shape
  show (PrettyJson.read _ part).map _ = none
  rw [refused]
  rfl

/-! ## The file system -/

/-- A file: its bytes, and whether the process may read them. -/
structure HistoryFile where
  /-- The content. -/
  bytes : List UInt8
  /-- Reading is permitted. -/
  readable : Bool
  deriving DecidableEq, Repr

/-- What is at the history path. -/
inductive HistoryDisk where
  /-- The directory does not exist. -/
  | noDirectory
  /-- The directory exists, the file does not. -/
  | noFile
  /-- The file exists. -/
  | file (content : HistoryFile)
  deriving DecidableEq, Repr

/-- Bytes written at an offset: the gap before them is filled, what lies behind them stays. -/
def overwrite (offset : Nat) (chunk bytes : List UInt8) : List UInt8 :=
  bytes.take offset ++ (List.replicate (offset - bytes.length) 0 ++
    (chunk ++ bytes.drop (offset + chunk.length)))

/-- `fs::create_dir_all`. -/
def HistoryDisk.createDirAll : HistoryDisk → HistoryDisk
  | .noDirectory => .noFile
  | .noFile => .noFile
  | .file content => .file content

/-- Opening for writing: an existing file is truncated, a new one is readable. -/
def HistoryDisk.create : HistoryDisk → Option HistoryDisk
  | .noDirectory => none
  | .noFile => some (.file { bytes := [], readable := true })
  | .file content => some (.file { content with bytes := [] })

/-- Bytes written through an open file. -/
def HistoryDisk.writeAt (offset : Nat) (chunk : List UInt8) : HistoryDisk → HistoryDisk
  | .noDirectory => .noDirectory
  | .noFile => .noFile
  | .file content => .file { content with bytes := overwrite offset chunk content.bytes }

/-! ## Loading and saving -/

section Storage

variable (json : HistoryJson)

/-- `fs::read_to_string`: an error when reading is not permitted or the bytes are not UTF-8. -/
def readToString (content : HistoryFile) : Option Text :=
  if content.readable then Utf8.decode content.bytes else none

/-- `load_history_entries`; `none` is an error, and text that is no JSON counts as no entries. -/
def loadHistoryEntries : HistoryDisk → Option (List HistoryEntry)
  | .noDirectory | .noFile => some []
  | .file content => (readToString content).map fun text => (json.fromStr text).getD []

/-- `load_history`: the same, as command lines. -/
def loadHistory : HistoryDisk → Option (List Text)
  | .noDirectory | .noFile => some []
  | .file content =>
    (readToString content).map fun text => ((json.fromStr text).getD []).map (·.command)

/-- `retain` the other entries and `insert` the new one at the front. -/
def recordEntry (command : Text) (cli : Cli) (history : List HistoryEntry) : List HistoryEntry :=
  { command, cli := some cli } :: history.filter (·.command ≠ command)

/-- The copy that is written: the commands without their parsed form. -/
def saveHistory (history : List HistoryEntry) : List HistoryEntry :=
  history.map fun entry => { command := entry.command, cli := none }

/-- The text one save writes, from the entries it loaded. -/
def savedText (command : Text) (cli : Cli) (history : List HistoryEntry) : Option Text :=
  json.toStringPretty (saveHistory (recordEntry command cli history))

/-- The errors the file system reports during one save. -/
structure SaveFaults where
  /-- `create_dir_all` fails. -/
  createDirAll : Bool := false
  /-- Opening the file for writing fails. -/
  create : Bool := false
  /-- Writing fails after so many bytes. -/
  stopped : Option Nat := none

/-- `fs::write`: open, then write from the start. -/
def fsWrite (faults : SaveFaults) (bytes : List UInt8) (disk : HistoryDisk) : Bool × HistoryDisk :=
  if faults.create then (false, disk)
  else match disk.create with
    | none => (false, disk)
    | some opened =>
      match faults.stopped with
      | none => (true, opened.writeAt 0 bytes)
      | some count => (false, opened.writeAt 0 (bytes.take count))

/-- `save_request` once the directory exists: load, put the command in front, write. -/
def saveInto (faults : SaveFaults) (command : Text) (cli : Cli) (disk : HistoryDisk) :
    Bool × HistoryDisk :=
  match savedText json command cli ((loadHistoryEntries json disk).getD []) with
  | none => (false, disk)
  | some text => fsWrite faults (Utf8.encode text) disk

/-- `save_request`: whether it returns `Ok`, and the disk it leaves. -/
def saveRequest (faults : SaveFaults) (command : Text) (cli : Cli) (disk : HistoryDisk) :
    Bool × HistoryDisk :=
  if disk = .noDirectory ∧ faults.createDirAll then (false, disk)
  else saveInto json faults command cli disk.createDirAll

end Storage

end Rcurl
