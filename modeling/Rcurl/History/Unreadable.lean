import Rcurl.History.SavedHistory

/-!
# A history that cannot be read

`save_request` takes a file that cannot be read, or that does not parse, for an empty history. So such a
file survives a sequence of calls exactly when none of them gets to open it for writing,
`unreadable_history`.
-/

namespace Rcurl

open ShellWords (Text)

/-- The content cannot be read, or is no list of entries. -/
def HistoryFile.Unreadable (json : HistoryJson) (content : HistoryFile) : Prop :=
  (readToString content).bind json.fromStr = none

/-- The text that a call writes over an empty history. -/
def SaveCall.freshText (json : HistoryJson) (call : SaveCall) : Option Text :=
  json.toStringPretty [{ command := call.command, cli := none }]

/-- The call gets to open the file for writing. -/
def SaveCall.Opens (json : HistoryJson) (call : SaveCall) : Prop :=
  call.faults.create = false ∧ (call.freshText json).isSome = true

/-- The bytes of a text that are written before a fault. -/
def SaveCall.written (call : SaveCall) (text : Text) : List UInt8 :=
  match call.faults.stopped with
  | none => Utf8.encode text
  | some count => (Utf8.encode text).take count

/-- Calls one after another, whatever they return. -/
def saveEach (json : HistoryJson) : List SaveCall → HistoryDisk → List Bool × HistoryDisk
  | [], disk => ([], disk)
  | call :: calls, disk =>
    let (ok, after) := saveRequest json call.faults call.command call.cli disk
    (ok :: (saveEach json calls after).1, (saveEach json calls after).2)

/-- Whatever was in the unreadable file can still be had from the disk. -/
def Recoverable (json : HistoryJson) (calls : List SaveCall) : Prop :=
  ∃ recover : HistoryDisk → List UInt8, ∀ content : HistoryFile, content.Unreadable json →
    recover (saveEach json calls (.file content)).2 = content.bytes

section Calls

variable {json : HistoryJson} {content : HistoryFile} {call : SaveCall}

/-- An unreadable file counts as an empty history. -/
theorem HistoryFile.Unreadable.loads (unreadable : content.Unreadable json) :
    (loadHistoryEntries json (.file content)).getD [] = [] := by
  rw [loadHistoryEntries]
  cases read : readToString content with
  | none => rfl
  | some text =>
    rw [HistoryFile.Unreadable, read, Option.bind_some] at unreadable
    rw [Option.map_some, unreadable]
    rfl

/-- Over an unreadable file a call writes its own command alone. -/
theorem saveRequest_unreadable (unreadable : content.Unreadable json) :
    saveRequest json call.faults call.command call.cli (.file content) =
      match call.freshText json with
      | none => (false, .file content)
      | some text => fsWrite call.faults (Utf8.encode text) (.file content) := by
  have present : ¬ (HistoryDisk.file content = .noDirectory ∧ call.faults.createDirAll = true) :=
    fun both => HistoryDisk.noConfusion both.1
  rw [saveRequest, if_neg present, HistoryDisk.createDirAll, saveInto, unreadable.loads]
  rfl

/-- A call that does not open the file returns an error and leaves it. -/
theorem saveRequest_closed (unreadable : content.Unreadable json) (closed : ¬ call.Opens json) :
    saveRequest json call.faults call.command call.cli (.file content) = (false, .file content) := by
  rw [saveRequest_unreadable unreadable]
  cases fresh : call.freshText json with
  | none => rfl
  | some text =>
    have refused : call.faults.create = true := by
      by_contra granted
      refine closed ⟨Bool.eq_false_iff.mpr granted, ?_⟩
      rw [fresh]
      rfl
    exact if_pos refused

/-- A call that opens the file leaves what it has written of its own text. -/
theorem saveRequest_opens (unreadable : content.Unreadable json) {text : Text}
    (granted : call.faults.create = false) (fresh : call.freshText json = some text) :
    saveRequest json call.faults call.command call.cli (.file content) =
      (call.faults.stopped.isNone, .file { content with bytes := call.written text }) := by
  have opened : ¬ call.faults.create = true := Bool.eq_false_iff.mp granted
  rw [saveRequest_unreadable unreadable, fresh]
  simp only [fsWrite, if_neg opened, HistoryDisk.create, SaveCall.written]
  cases call.faults.stopped with
  | none => simp only [HistoryDisk.writeAt, overwrite_empty, Option.isNone_none]
  | some count => simp only [HistoryDisk.writeAt, overwrite_empty, Option.isNone_some]

/-- Calls that do not open the file all return errors and leave it. -/
theorem saveEach_closed (unreadable : content.Unreadable json) (calls : List SaveCall)
    (closed : ∀ call ∈ calls, ¬ call.Opens json) :
    saveEach json calls (.file content) = (calls.map fun _ => false, .file content) := by
  induction calls with
  | nil => rfl
  | cons call calls ih =>
    have first := saveRequest_closed unreadable (closed call List.mem_cons_self)
    have rest := ih fun later member => closed later (List.mem_cons_of_mem call member)
    rw [saveEach, first]
    simp only [rest, List.map_cons]

/-- After a call that opens the file, the disk is the same for two unreadable files. -/
theorem saveEach_opens (calls : List SaveCall) {other : HistoryFile}
    (unreadable : content.Unreadable json) (another : other.Unreadable json)
    (same : content.readable = other.readable) (opens : ∃ call ∈ calls, call.Opens json) :
    (saveEach json calls (.file content)).2 = (saveEach json calls (.file other)).2 := by
  induction calls with
  | nil =>
    obtain ⟨call, absent, _⟩ := opens
    exact absurd absent List.not_mem_nil
  | cons call calls ih =>
    rw [saveEach, saveEach]
    by_cases here : call.Opens json
    · obtain ⟨text, fresh⟩ := Option.isSome_iff_exists.mp here.2
      have left := saveRequest_opens unreadable here.1 fresh
      have right := saveRequest_opens another here.1 fresh
      rw [left, right, same]
    · have later : ∃ call ∈ calls, call.Opens json := by
        obtain ⟨later, member, known⟩ := opens
        rcases List.mem_cons.mp member with rfl | rest
        · exact absurd known here
        · exact ⟨later, rest, known⟩
      rw [saveRequest_closed unreadable here, saveRequest_closed another here]
      exact ih later

/-- A file that may not be read is unreadable. -/
theorem unreadable_of_denied (bytes : List UInt8) :
    HistoryFile.Unreadable json { bytes, readable := false } := rfl

/-- What an unreadable file holds can be had after a sequence of calls exactly when none opens it. -/
theorem recoverable_iff (calls : List SaveCall) :
    Recoverable json calls ↔ ∀ call ∈ calls, ¬ call.Opens json := by
  constructor
  · rintro ⟨recover, recovers⟩ call member opens
    have first : HistoryFile.Unreadable json { bytes := [0], readable := false } :=
      unreadable_of_denied [0]
    have second : HistoryFile.Unreadable json { bytes := [1], readable := false } :=
      unreadable_of_denied [1]
    have together := congrArg recover (saveEach_opens calls first second rfl ⟨call, member, opens⟩)
    rw [recovers _ first, recovers _ second] at together
    contradiction
  · intro closed
    refine ⟨fun disk => match disk with
      | .file content => content.bytes
      | .noDirectory | .noFile => [], fun content unreadable => ?_⟩
    rw [saveEach_closed unreadable calls closed]

end Calls

/-- An unreadable history survives a sequence of calls exactly when none of them opens it. Calls that
do not open it return errors and leave it as it is; one that does leaves its own command alone, and
returns `Ok` when all of it is written. -/
theorem unreadable_history (json : HistoryJson) (calls : List SaveCall) :
    (Recoverable json calls ↔ ∀ call ∈ calls, ¬ call.Opens json) ∧
      ∀ content : HistoryFile, content.Unreadable json →
        ((∀ call ∈ calls, ¬ call.Opens json) →
          saveEach json calls (.file content) = (calls.map fun _ => false, .file content)) ∧
        ∀ (call : SaveCall) (text : Text), call.faults.create = false →
          call.freshText json = some text →
            saveRequest json call.faults call.command call.cli (.file content) =
              (call.faults.stopped.isNone, .file { content with bytes := call.written text }) :=
  ⟨recoverable_iff calls, fun _ unreadable => ⟨saveEach_closed unreadable calls,
    fun _ _ granted fresh => saveRequest_opens unreadable granted fresh⟩⟩

/-- One call that nothing keeps from writing. -/
def plainCall : SaveCall := { command := "rcurl p a".toList, cli := {} }

/-- A call without faults destroys an unreadable history. -/
theorem unreadable_overwritten : ¬ ∀ (json : HistoryJson) (calls : List SaveCall),
    Recoverable json calls := by
  intro recovers
  have closed := (recoverable_iff [plainCall]).mp (recovers prettyHistory [plainCall])
  exact closed plainCall List.mem_cons_self ⟨rfl, rfl⟩

end Rcurl
