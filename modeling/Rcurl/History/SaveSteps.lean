import Rcurl.History.SavedHistory

/-!
# A save, one file system call at a time

`save_request` as a machine, so that it can be stopped or interleaved between any two calls: create
the directory, load, open for writing, write some bytes, return. `saveRequest` is one run of it. What
a stopped save leaves is described by `SaveProgress`, which every step keeps.
-/

namespace Rcurl

open ShellWords (Text)

/-- Where one call of `save_request` stands. -/
inductive SavePhase where
  /-- Nothing has been read. -/
  | started
  /-- The history has been read into memory. -/
  | loaded (history : List HistoryEntry)
  /-- The file is open; the next byte goes to the offset, and these bytes are left. -/
  | writing (offset : Nat) (rest : List UInt8)
  /-- The call is over. -/
  | returned (ok : Bool)
  deriving DecidableEq, Repr

/-- One step of a call. -/
inductive SaveMove where
  /-- `create_dir_all`. -/
  | createDirAll
  /-- `load_history_entries`. -/
  | load
  /-- The file is opened, which truncates it. -/
  | create
  /-- Up to so many bytes are written. -/
  | write (count : Nat)
  /-- Everything is written and the call returns `Ok`. -/
  | finish
  /-- A call to the file system or the JSON library fails and the error is returned. -/
  | fail
  deriving DecidableEq, Repr

variable (json : HistoryJson) (command : Text) (cli : Cli)

/-- One step: the phase and the disk after it, when the step is possible. -/
def advance (move : SaveMove) (phase : SavePhase) (disk : HistoryDisk) :
    Option (SavePhase × HistoryDisk) :=
  match move, phase with
  | .createDirAll, .started => some (.started, disk.createDirAll)
  | .load, .started =>
    if disk = .noDirectory then none
    else some (.loaded ((loadHistoryEntries json disk).getD []), disk)
  | .create, .loaded history =>
    (savedText json command cli history).bind fun text =>
      disk.create.map fun opened => (.writing 0 (Utf8.encode text), opened)
  | .write count, .writing offset rest =>
    some (.writing (offset + (rest.take count).length) (rest.drop count),
      disk.writeAt offset (rest.take count))
  | .finish, .writing _ [] => some (.returned true, disk)
  | .fail, .started => some (.returned false, disk)
  | .fail, .loaded _ => some (.returned false, disk)
  | .fail, .writing _ _ => some (.returned false, disk)
  | _, _ => none

/-- The steps of one call with nobody else at the file. -/
def runMoves : List SaveMove → SavePhase → HistoryDisk → Option (SavePhase × HistoryDisk)
  | [], phase, disk => some (phase, disk)
  | move :: moves, phase, disk =>
    (advance json command cli move phase disk).bind fun next => runMoves moves next.1 next.2

/-! ## `saveRequest` is one run -/

variable {json command cli}

/-- `fs::write` is a run from the loaded phase. -/
theorem fsWrite_runs {history : List HistoryEntry} {text : Text}
    (written : savedText json command cli history = some text) (faults : SaveFaults)
    (disk : HistoryDisk) :
    ∃ moves, runMoves json command cli moves (.loaded history) disk =
      some (.returned (fsWrite faults (Utf8.encode text) disk).1,
        (fsWrite faults (Utf8.encode text) disk).2) := by
  cases refused : faults.create with
  | true => exact ⟨[.fail], by simp [fsWrite, refused, runMoves, advance]⟩
  | false =>
    cases created : disk.create with
    | none => exact ⟨[.fail], by simp [fsWrite, refused, created, runMoves, advance]⟩
    | some opened =>
      cases stopped : faults.stopped with
      | none =>
        refine ⟨[.create, .write (Utf8.encode text).length, .finish], ?_⟩
        simp [fsWrite, refused, created, stopped, runMoves, advance, written]
      | some count =>
        refine ⟨[.create, .write count, .fail], ?_⟩
        simp [fsWrite, refused, created, stopped, runMoves, advance, written]

/-- `save_request` is a run of the machine, whatever errors it meets. -/
theorem saveRequest_runs (faults : SaveFaults) (disk : HistoryDisk) :
    ∃ moves, runMoves json command cli moves .started disk =
      some (.returned (saveRequest json faults command cli disk).1,
        (saveRequest json faults command cli disk).2) := by
  by_cases refused : disk = .noDirectory ∧ faults.createDirAll = true
  · exact ⟨[.fail], by rw [saveRequest, if_pos refused]; rfl⟩
  · have present : disk.createDirAll ≠ .noDirectory := by
      cases disk <;> exact HistoryDisk.noConfusion
    have opening : ∀ moves, runMoves json command cli (.createDirAll :: .load :: moves) .started disk =
        runMoves json command cli moves
          (.loaded ((loadHistoryEntries json disk.createDirAll).getD [])) disk.createDirAll := by
      intro moves
      simp [runMoves, advance, present]
    rw [saveRequest, if_neg refused, saveInto]
    cases written : savedText json command cli
        ((loadHistoryEntries json disk.createDirAll).getD []) with
    | none => exact ⟨[.createDirAll, .load, .fail], by rw [opening]; rfl⟩
    | some text =>
      obtain ⟨moves, run⟩ := fsWrite_runs written faults disk.createDirAll
      exact ⟨.createDirAll :: .load :: moves, by rw [opening, run]⟩

/-! ## What a stopped save leaves -/

variable (json command cli)

/-- The file holds the first bytes of the new list, and these bytes are missing. -/
def Torn (old : List Text) (written rest : List UInt8) (disk : HistoryDisk) : Prop :=
  ∃ history text, history.map (·.command) = old ∧ savedText json command cli history = some text ∧
    written ++ rest = Utf8.encode text ∧ disk = .file { bytes := written, readable := true }

/-- What is known of the disk and the phase of a save that loaded, or will load, the given list;
the flag says whether the file has been opened for writing. -/
inductive SaveProgress (old : List Text) : Bool → SavePhase → HistoryDisk → Prop
  /-- Nothing was done that the loader notices. -/
  | started {disk : HistoryDisk} (untouched : loadHistory json disk = some old) :
    SaveProgress old false .started disk
  /-- The entries in memory are those on disk. -/
  | loaded {disk : HistoryDisk} {history : List HistoryEntry}
    (read : loadHistoryEntries json disk = some history)
    (commands : history.map (·.command) = old) : SaveProgress old false (.loaded history) disk
  /-- The file is being written. -/
  | writing {disk : HistoryDisk} {written rest : List UInt8}
    (torn : Torn json command cli old written rest disk) :
    SaveProgress old true (.writing written.length rest) disk
  /-- The whole list was written. -/
  | succeeded {disk : HistoryDisk} {written : List UInt8}
    (torn : Torn json command cli old written [] disk) : SaveProgress old true (.returned true) disk
  /-- An error before the file was opened. -/
  | refused {disk : HistoryDisk} (untouched : loadHistory json disk = some old) :
    SaveProgress old false (.returned false) disk
  /-- An error after the file was opened. -/
  | broken {disk : HistoryDisk} {written rest : List UInt8}
    (torn : Torn json command cli old written rest disk) :
    SaveProgress old true (.returned false) disk

variable {json command cli}

/-- Writing the next bytes of an open file appends them. -/
theorem overwrite_end (bytes chunk : List UInt8) :
    overwrite bytes.length chunk bytes = bytes ++ chunk := by
  simp [overwrite]

/-- Every step of a save keeps its progress. -/
theorem SaveProgress.step {old : List Text} {opened : Bool} {phase next : SavePhase}
    {disk after : HistoryDisk} (progress : SaveProgress json command cli old opened phase disk)
    {move : SaveMove} (taken : advance json command cli move phase disk = some (next, after)) :
    SaveProgress json command cli old (opened || decide (move = .create)) next after := by
  cases progress with
  | started untouched =>
    cases move <;> simp only [advance, Option.some.injEq, Prod.mk.injEq, reduceCtorEq] at taken
    · obtain ⟨rfl, rfl⟩ := taken
      apply SaveProgress.started
      rw [loadHistory_createDirAll, untouched]
    · rw [Option.ite_none_left_eq_some, Option.some.injEq, Prod.mk.injEq] at taken
      obtain ⟨_, rfl, rfl⟩ := taken
      rw [loadHistory_eq, Option.map_eq_some_iff] at untouched
      obtain ⟨history, read, commands⟩ := untouched
      rw [read]
      exact .loaded read commands
    · obtain ⟨rfl, rfl⟩ := taken
      exact .refused untouched
  | loaded read commands =>
    cases move <;> simp only [advance, Option.some.injEq, Prod.mk.injEq, reduceCtorEq] at taken
    · obtain ⟨text, written, later⟩ := Option.bind_eq_some_iff.mp taken
      obtain ⟨opened, created, same⟩ := Option.map_eq_some_iff.mp later
      obtain ⟨rfl, rfl⟩ := Prod.mk.inj same
      have untouched : loadHistory json disk = some old := by
        rw [loadHistory_eq, read, Option.map_some, commands]
      have torn : Torn json command cli old [] (Utf8.encode text) opened :=
        ⟨_, text, commands, written, rfl, create_readable untouched created⟩
      exact .writing torn
    · obtain ⟨rfl, rfl⟩ := taken
      apply SaveProgress.refused
      rw [loadHistory_eq, read, Option.map_some, commands]
  | @writing _ written rest torn =>
    obtain ⟨history, text, commands, saved, whole, shape⟩ := torn
    cases move <;> simp only [advance, Option.some.injEq, Prod.mk.injEq, reduceCtorEq] at taken
    · rename_i count
      obtain ⟨rfl, rfl⟩ := taken
      rw [← List.length_append, Bool.true_or]
      refine .writing ⟨history, text, commands, saved, ?_, ?_⟩
      · rw [List.append_assoc, List.take_append_drop, whole]
      · rw [shape, HistoryDisk.writeAt, overwrite_end]
    · cases rest with
      | nil =>
        rw [Option.some.injEq, Prod.mk.injEq] at taken
        obtain ⟨rfl, rfl⟩ := taken
        exact .succeeded ⟨history, text, commands, saved, whole, shape⟩
      | cons byte rest => contradiction
    · obtain ⟨rfl, rfl⟩ := taken
      exact .broken ⟨history, text, commands, saved, whole, shape⟩
  | succeeded torn => cases move <;> contradiction
  | refused untouched => cases move <;> contradiction
  | broken torn => cases move <;> contradiction

/-- A run of steps keeps the progress, and knows whether it opened the file. -/
theorem SaveProgress.run {old : List Text} (moves : List SaveMove) :
    ∀ {opened : Bool} {phase last : SavePhase} {disk after : HistoryDisk},
      SaveProgress json command cli old opened phase disk →
        runMoves json command cli moves phase disk = some (last, after) →
          SaveProgress json command cli old (opened || decide (.create ∈ moves)) last after := by
  induction moves with
  | nil =>
    intro opened phase last disk after progress run
    obtain ⟨rfl, rfl⟩ := Prod.mk.inj (Option.some.inj run)
    simpa using progress
  | cons move moves ih =>
    intro opened phase last disk after progress run
    obtain ⟨⟨next, between⟩, taken, later⟩ := Option.bind_eq_some_iff.mp run
    have kept := ih (progress.step taken) later
    have flag : (opened || decide (SaveMove.create ∈ move :: moves)) =
        (opened || decide (move = .create) || decide (SaveMove.create ∈ moves)) := by
      rw [Bool.or_assoc, ← Bool.decide_or]
      simp [eq_comm]
    rw [flag]
    exact kept

/-- A file with nothing missing shows the new list. -/
theorem Torn.complete {old : List Text} {written : List UInt8} {disk : HistoryDisk}
    (torn : Torn json command cli old written [] disk) :
    loadHistory json disk = some (Recency.toFront command old) := by
  obtain ⟨history, text, rfl, saved, whole, shape⟩ := torn
  rw [List.append_nil] at whole
  rw [shape, whole]
  exact loadHistory_saved saved

/-- A file that is cut short shows nothing: its bytes are no text, or the text no JSON. -/
theorem Torn.incomplete {old : List Text} {written rest : List UInt8} {disk : HistoryDisk}
    (torn : Torn json command cli old written rest disk) (missing : rest ≠ [])
    (refuses : json.RefusesPrefixes) :
    loadHistory json disk = none ∨ loadHistory json disk = some [] := by
  obtain ⟨history, text, rfl, saved, whole, shape⟩ := torn
  rw [shape]
  exact loadHistory_cut refuses saved whole missing

end Rcurl
