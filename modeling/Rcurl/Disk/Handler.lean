import Mathlib.Data.UInt
import Rcurl.Disk.DisplayName
import Rcurl.Foundation.LossyUtf8
import Rcurl.Foundation.ParallelMap

/-!
# Disk usage

`disk_size_command` lists the entries of a directory: `get_disk_usage` walks over its top level, then
over each directory in it, in parallel, and adds up the lengths of the files. What cannot be read is
left out. The tree does not change meanwhile, and the progress bar is left out.
-/

namespace Rcurl

open RustText (Text)

/-- A name in a directory, as bytes. -/
abbrev FileName := List UInt8

/-- A directory tree. -/
inductive Entry where
  /-- A regular file, with its length when its metadata can be read. -/
  | file (name : FileName) (length : Option UInt64)
  /-- A directory, whose entries can be read when it opens. -/
  | directory (name : FileName) (opens : Bool) (entries : List Entry)
  /-- A symbolic link, which a walk does not follow. -/
  | link (name : FileName)
  /-- Anything else, such as a socket. -/
  | special (name : FileName)
  /-- An entry that cannot be listed: its name or its type is not read. -/
  | failed

/-- The name of an entry. -/
def Entry.name : Entry → FileName
  | .file name _ => name
  | .directory name _ _ => name
  | .link name => name
  | .special name => name
  | .failed => []

/-- `is_dir` of the file type. -/
def Entry.isDir : Entry → Bool
  | .directory _ _ _ => true
  | .file _ _ | .link _ | .special _ | .failed => false

/-- The length of a regular file with readable metadata. -/
def Entry.fileLength : Entry → Option UInt64
  | .file _ length => length
  | .directory _ _ _ | .link _ | .special _ | .failed => none

/-- `walkdir::DirEntry`. -/
structure DirEntry where
  /-- The path, from the directory that is listed on. -/
  path : List FileName
  /-- What is there. -/
  entry : Entry

mutual

/-- The entries that a walk reaches, each before those in it, with a missing one for each error. Links
are not followed. A directory that does not open is reached and gives an error behind it. -/
def Entry.reach (depth : Option Nat) (path : List FileName) : Entry → List (Option DirEntry)
  | .failed => [none]
  | .directory name opens entries =>
    some { path, entry := .directory name opens entries } ::
      if depth = some 0 then [] else if opens then Entry.reachAll (depth.map (· - 1)) path entries
      else [none]
  | .file name length => [some { path, entry := .file name length }]
  | .link name => [some { path, entry := .link name }]
  | .special name => [some { path, entry := .special name }]

/-- The same of the entries in a directory. -/
def Entry.reachAll (depth : Option Nat) (path : List FileName) : List Entry → List (Option DirEntry)
  | [] => []
  | entry :: entries =>
    entry.reach depth (path ++ [entry.name]) ++ Entry.reachAll depth path entries

end

/-- `WalkDir`, which yields every reachable entry once, in an order of its own. -/
structure WalkDir where
  /-- What it yields at a path, down to a depth. -/
  walk : Option Nat → List FileName → Entry → List (Option DirEntry)
  /-- It is what can be reached. -/
  once : ∀ depth path entry, (walk depth path entry).Perm (entry.reach depth path)

/-- The walk in the order of the directories themselves. -/
def WalkDir.inOrder : WalkDir where
  walk depth path entry := entry.reach depth path
  once _ _ _ := List.Perm.refl _

/-- The order in which the directories are done. -/
abbrev Scheduler := (count : Nat) → ParallelMap.Schedule count

/-- `calculate_dir_size_parallel`. -/
def calculateDirSizeParallel (walkDir : WalkDir) (dir : DirEntry) : UInt64 :=
  (((walkDir.walk none dir.path dir.entry).filterMap id).filterMap (·.entry.fileLength)).sum

/-- The nearest integer to a quotient, the even one of two. -/
def roundHalfEven (numerator denominator : Nat) : Nat :=
  let quotient := numerator / denominator
  let twice := 2 * (numerator % denominator)
  if denominator < twice ∨ (twice = denominator ∧ quotient % 2 = 1) then quotient + 1 else quotient

/-- `as f64`: an integer with more than 53 bits is rounded. -/
def asF64 (number : Nat) : Nat :=
  if number < 2 ^ 53 then number
  else
    let unit := 2 ^ (Nat.log2 number - 52)
    roundHalfEven number unit * unit

/-- `{:.2}` of a quotient. -/
def twoDecimals (numerator denominator : Nat) : Text :=
  let hundredths := roundHalfEven (numerator * 100) denominator
  RustText.decimal (hundredths / 100) ++
    '.' :: RustText.decimal (hundredths / 10 % 10) ++ RustText.decimal (hundredths % 10)

/-- `TB`. -/
def tb : Nat := 1024 * 1024 * 1024 * 1024

/-- `GB`. -/
def gb : Nat := 1024 * 1024 * 1024

/-- `MB`. -/
def mb : Nat := 1024 * 1024

/-- `KB`. -/
def kb : Nat := 1024

/-- `format_bytes`. -/
def formatBytes (bytes : UInt64) : Text :=
  let number := bytes.toNat
  if number ≥ tb then twoDecimals (asF64 number) tb ++ " TB".toList
  else if number ≥ gb then twoDecimals (asF64 number) gb ++ " GB".toList
  else if number ≥ mb then twoDecimals (asF64 number) mb ++ " MB".toList
  else if number ≥ kb then twoDecimals (asF64 number) kb ++ " KB".toList
  else RustText.decimal number ++ " B".toList

/-- `DiskEntry`. -/
structure DiskEntry where
  /-- The last component of the path. -/
  name : Text
  /-- What is left of it when it is cut to its column. -/
  displayName : Text
  /-- The number of bytes as it is written, with a unit. -/
  size : Text
  /-- The group the row is printed in, `DIR` or `FILE`. -/
  fileType : Text
  deriving DecidableEq, Repr

/-- A row. -/
def diskEntry (name : Text) (size : UInt64) (fileType : Text) : DiskEntry :=
  { name, displayName := truncateForDisplay name 48, size := formatBytes size, fileType }

/-- `file_name().unwrap_or_default().to_string_lossy()` of a path that was walked to. -/
def DirEntry.fileName (entry : DirEntry) : Text := LossyUtf8.lossy (entry.path.getLast?.getD [])

/-- `sort_by(|a, b| b.1.cmp(&a.1))`, which is stable. -/
def sortBySize (sized : List (DirEntry × UInt64)) : List (DirEntry × UInt64) :=
  sized.mergeSort fun a b => b.2 ≤ a.2

/-- What the walk over the top level yields, but for the directory itself and for errors. -/
def foundEntries (walkDir : WalkDir) (root : Entry) : List DirEntry :=
  ((walkDir.walk (some 1) [] root).filterMap id).filter fun entry => entry.path ≠ []

/-- `dir_sizes`, before they are sorted. -/
def dirSizes (walkDir : WalkDir) (scheduler : Scheduler) (found : List DirEntry) :
    List (DirEntry × UInt64) :=
  let dirs := found.filter (·.entry.isDir)
  ParallelMap.collect (fun dir => (dir, calculateDirSizeParallel walkDir dir)) dirs
    (scheduler dirs.length)

/-- `files`, before they are sorted. -/
def fileSizes (found : List DirEntry) : List (DirEntry × UInt64) :=
  found.filterMap fun file => file.entry.fileLength.map fun length => (file, length)

/-- The rows of directories, or of files. -/
def sortedRows (fileType : Text) (sized : List (DirEntry × UInt64)) : List DiskEntry :=
  (sortBySize sized).map fun entry => diskEntry entry.1.fileName entry.2 fileType

/-- `get_disk_usage`, at a path and what it leads to once links are followed. -/
def getDiskUsage (walkDir : WalkDir) (scheduler : Scheduler) (path : Text) (root : Entry) :
    List DiskEntry :=
  match root with
  | .file _ (some length) => [diskEntry ((RustText.fileName path).getD []) length "FILE".toList]
  | _ =>
    let found := foundEntries walkDir root
    sortedRows "DIR".toList (dirSizes walkDir scheduler found) ++
      sortedRows "FILE".toList (fileSizes found)

/-- The name and its padding, as `disk_size_command` prints them. -/
def nameColumn (entry : DiskEntry) : Text :=
  entry.displayName ++ List.replicate (50 - displayWidth entry.displayName) ' '

/-- A row as it is printed. -/
def printRow (entry : DiskEntry) : Text :=
  nameColumn entry ++ ' ' :: RustText.padLeft 12 entry.size ++
    ' ' :: RustText.padLeft 12 entry.fileType

/-- `disk_size_command`: the lines that are printed, or an error when there is nothing at the path. The
time that has passed is given as it is written. -/
def diskSizeCommand (walkDir : WalkDir) (scheduler : Scheduler) (elapsed : Text) (path : Text)
    (root : Option Entry) : Except Text (List Text) :=
  match root with
  | none => .error ("disk-size: path does not exist: ".toList ++ path)
  | some root =>
    .ok (["Disk usage for: ".toList ++ path,
        RustText.padRight 50 "Name".toList ++ ' ' :: RustText.padLeft 12 "Size".toList ++
          ' ' :: RustText.padLeft 12 "Type".toList,
        List.replicate 76 '-'] ++
      (getDiskUsage walkDir scheduler path root).map printRow ++
      [[], "Time elapsed: ".toList ++ elapsed])

end Rcurl
