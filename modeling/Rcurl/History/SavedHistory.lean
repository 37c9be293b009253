import Rcurl.History.Storage

/-!
# The history over runs of saves

What a successful `save_request` does to the list that `load_history` shows, and by induction what
a run of them does: `saved_history`.
-/

namespace Rcurl

open ShellWords (Text)

variable {json : HistoryJson}

/-- The two loaders read the same entries. -/
theorem loadHistory_eq (disk : HistoryDisk) :
    loadHistory json disk = (loadHistoryEntries json disk).map (List.map (·.command)) := by
  cases disk with
  | noDirectory => rfl
  | noFile => rfl
  | file content =>
    rw [loadHistory, loadHistoryEntries, Option.map_map]
    rfl

/-- The commands of the saved copy are those of the entries with the new one moved to the front. -/
theorem saveHistory_commands (command : Text) (cli : Cli) (history : List HistoryEntry) :
    (saveHistory (recordEntry command cli history)).map (·.command) =
      Recency.toFront command (history.map (·.command)) := by
  rw [saveHistory, List.map_map, recordEntry, List.map_cons, Recency.toFront, List.filter_map]
  rfl

/-- A file that holds the whole text of a save shows the new list. -/
theorem loadHistory_saved {command text : Text} {cli : Cli} {history : List HistoryEntry}
    (written : savedText json command cli history = some text) :
    loadHistory json (.file { bytes := Utf8.encode text, readable := true }) =
      some (Recency.toFront command (history.map (·.command))) := by
  have back := json.readsBack written
  have stored : (saveHistory (recordEntry command cli history)).map HistoryEntry.stored =
      saveHistory (recordEntry command cli history) := by
    rw [saveHistory, List.map_map]
    rfl
  rw [stored] at back
  rw [loadHistory, readToString, if_pos rfl, Utf8.decode_encode, Option.map_some, back,
    Option.getD_some, saveHistory_commands]

/-- A file that holds a part of that text shows nothing: its bytes are no text, or the text no JSON. -/
theorem loadHistory_cut (refuses : json.RefusesPrefixes) {command text : Text} {cli : Cli}
    {history : List HistoryEntry} (saved : savedText json command cli history = some text)
    {written rest : List UInt8} (whole : written ++ rest = Utf8.encode text) (missing : rest ≠ []) :
    loadHistory json (.file { bytes := written, readable := true }) = none ∨
      loadHistory json (.file { bytes := written, readable := true }) = some [] := by
  rw [loadHistory, readToString, if_pos rfl]
  cases decoded : Utf8.decode written with
  | none => exact .inl rfl
  | some part =>
    right
    obtain ⟨more, split⟩ := Utf8.prefix_of_decode whole decoded
    have longer : more ≠ [] := by
      intro empty
      rw [empty, List.append_nil] at split
      have same := Utf8.encode_of_decode decoded
      rw [split] at same
      rw [same] at whole
      exact missing (List.append_right_eq_self.mp whole)
    rw [Option.map_some, refuses _ _ _ _ saved split longer]
    rfl

/-- Writing from the start of an empty file leaves exactly the bytes written. -/
theorem overwrite_empty (chunk : List UInt8) : overwrite 0 chunk [] = chunk := by
  simp [overwrite]

/-- A disk whose history loads is readable where it has a file. -/
theorem readable_of_loadHistory {content : HistoryFile} {old : List Text}
    (loaded : loadHistory json (.file content) = some old) : content.readable = true := by
  rw [loadHistory, readToString] at loaded
  by_contra unreadable
  rw [if_neg unreadable] at loaded
  contradiction

/-- Creating the directory changes nothing that is loaded. -/
theorem loadHistoryEntries_createDirAll (disk : HistoryDisk) :
    loadHistoryEntries json disk.createDirAll = loadHistoryEntries json disk := by
  cases disk <;> rfl

/-- Creating the directory changes nothing that is shown. -/
theorem loadHistory_createDirAll (disk : HistoryDisk) :
    loadHistory json disk.createDirAll = loadHistory json disk := by
  rw [loadHistory_eq, loadHistoryEntries_createDirAll, ← loadHistory_eq]

/-- Opening a readable history leaves an empty readable file. -/
theorem create_readable {disk opened : HistoryDisk} {old : List Text}
    (loaded : loadHistory json disk = some old) (created : disk.create = some opened) :
    opened = .file { bytes := [], readable := true } := by
  cases disk with
  | noDirectory => contradiction
  | noFile => exact (Option.some.inj created).symm
  | file content =>
    rw [← Option.some.inj created, readable_of_loadHistory loaded]

/-- A write that returns `Ok` opened the file and wrote every byte. -/
theorem fsWrite_ok {faults : SaveFaults} {bytes : List UInt8} {disk after : HistoryDisk}
    (written : fsWrite faults bytes disk = (true, after)) :
    ∃ opened, disk.create = some opened ∧ after = opened.writeAt 0 bytes := by
  unfold fsWrite at written
  split_ifs at written
  · exact absurd (congrArg Prod.fst written) Bool.false_ne_true
  · cases created : disk.create with
    | none => simp [created] at written
    | some opened =>
      cases stopped : faults.stopped with
      | some count => simp [created, stopped] at written
      | none =>
        simp only [created, stopped, Prod.mk.injEq, true_and] at written
        exact ⟨opened, rfl, written.symm⟩

/-- A successful save moves or adds its command to the front. -/
theorem saveRequest_ok {faults : SaveFaults} {command : Text} {cli : Cli}
    {disk after : HistoryDisk} {old : List Text} (loaded : loadHistory json disk = some old)
    (saved : saveRequest json faults command cli disk = (true, after)) :
    loadHistory json after = some (Recency.toFront command old) := by
  rw [← loadHistory_createDirAll] at loaded
  have entries := loaded
  rw [loadHistory_eq, Option.map_eq_some_iff] at entries
  obtain ⟨history, read, rfl⟩ := entries
  rw [saveRequest, saveInto, read, Option.getD_some] at saved
  split_ifs at saved with refused
  · exact absurd (congrArg Prod.fst saved) Bool.false_ne_true
  · cases written : savedText json command cli history with
    | none => simp [written] at saved
    | some text =>
      simp only [written] at saved
      obtain ⟨opened, created, rfl⟩ := fsWrite_ok saved
      rw [create_readable loaded created, HistoryDisk.writeAt, overwrite_empty]
      exact loadHistory_saved written

/-- What an opened file shows once some of the new text is written: the command, or what was read. -/
theorem loadHistory_written (refuses : json.RefusesPrefixes) {command text : Text} {cli : Cli}
    {disk opened : HistoryDisk} (created : disk.create = some opened)
    (saved : savedText json command cli ((loadHistoryEntries json disk).getD []) = some text)
    {written rest : List UInt8} (whole : written ++ rest = Utf8.encode text) :
    ∀ line ∈ (loadHistory json (opened.writeAt 0 written)).getD [],
      line = command ∨ line ∈ (loadHistory json disk).getD [] := by
  intro line member
  cases shape : opened with
  | noDirectory => cases disk <;> simp [shape, HistoryDisk.create] at created
  | noFile => cases disk <;> simp [shape, HistoryDisk.create] at created
  | file content =>
    have empty : content.bytes = [] := by
      cases disk <;> simp only [shape, HistoryDisk.create, Option.some.injEq, reduceCtorEq,
        HistoryDisk.file.injEq] at created
      · rw [← created]
      · rw [← created]
    rw [shape, HistoryDisk.writeAt, empty, overwrite_empty] at member
    cases permitted : content.readable with
    | false =>
      rw [permitted, loadHistory, readToString, if_neg Bool.false_ne_true] at member
      exact absurd member List.not_mem_nil
    | true =>
      rw [permitted] at member
      by_cases missing : rest = []
      · rw [missing, List.append_nil] at whole
        rw [whole, loadHistory_saved saved, Option.getD_some, Recency.mem_toFront] at member
        have entries : ((loadHistoryEntries json disk).getD []).map (·.command) =
            (loadHistory json disk).getD [] := by
          rw [loadHistory_eq]
          cases loadHistoryEntries json disk <;> rfl
        rw [entries] at member
        exact member
      · rcases loadHistory_cut refuses saved whole missing with unread | empty
        · rw [unread] at member
          exact absurd member List.not_mem_nil
        · rw [empty] at member
          exact absurd member List.not_mem_nil

/-- Whatever errors a save meets, every line shown behind it is its command or was shown before. -/
theorem saveRequest_shows (refuses : json.RefusesPrefixes) (faults : SaveFaults) (command : Text)
    (cli : Cli) (disk : HistoryDisk) :
    ∀ line ∈ (loadHistory json (saveRequest json faults command cli disk).2).getD [],
      line = command ∨ line ∈ (loadHistory json disk).getD [] := by
  have unchanged : ∀ line ∈ (loadHistory json disk.createDirAll).getD [],
      line = command ∨ line ∈ (loadHistory json disk).getD [] := by
    intro line member
    rw [loadHistory_createDirAll] at member
    exact .inr member
  unfold saveRequest saveInto
  split_ifs with refused
  · exact fun line member => .inr member
  · cases saved : savedText json command cli ((loadHistoryEntries json disk.createDirAll).getD []) with
    | none => exact unchanged
    | some text =>
      simp only [fsWrite]
      split_ifs with denied
      · exact unchanged
      · cases created : disk.createDirAll.create with
        | none => exact unchanged
        | some opened =>
          rw [← loadHistory_createDirAll disk]
          cases faults.stopped with
          | none => exact loadHistory_written refuses created saved (List.append_nil _)
          | some count =>
            exact loadHistory_written refuses created saved (List.take_append_drop count _)

/-- One call of `save_request` and the errors it meets. -/
structure SaveCall where
  /-- The command to record. -/
  command : Text
  /-- Its parsed form. -/
  cli : Cli
  /-- The errors of the file system during the call. -/
  faults : SaveFaults := {}

/-- Calls one after another, as long as each returns `Ok`. -/
def saveAll (json : HistoryJson) : List SaveCall → HistoryDisk → Option HistoryDisk
  | [], disk => some disk
  | call :: calls, disk =>
    match saveRequest json call.faults call.command call.cli disk with
    | (true, after) => saveAll json calls after
    | (false, _) => none

/-- A run of successful saves uses its commands in order. -/
theorem saveAll_touch (calls : List SaveCall) : ∀ {start final : HistoryDisk} {old : List Text},
    loadHistory json start = some old → saveAll json calls start = some final →
      loadHistory json final = some (Recency.touch (calls.map (·.command)) old) := by
  induction calls with
  | nil =>
    intro start final old loaded run
    rw [← Option.some.inj run]
    exact loaded
  | cons call calls ih =>
    intro start final old loaded run
    rw [saveAll] at run
    cases saved : saveRequest json call.faults call.command call.cli start with
    | mk ok after =>
      cases ok with
      | false => simp [saved] at run
      | true =>
        simp only [saved] at run
        rw [List.map_cons, Recency.touch_cons]
        exact ih (saveRequest_ok loaded saved) run

/-- The history is a most recently used list. After any run of successful saves it shows the
saved commands, each once and the last used first, and behind them the commands it showed before
that were not saved again, in their order; from no file it shows the saved commands alone. -/
theorem saved_history (calls : List SaveCall) (start final : HistoryDisk)
    (run : saveAll json calls start = some final) :
    ∃ recent, Recency.LatestFirst (calls.map (·.command)) recent ∧
      (start = .noDirectory ∨ start = .noFile → loadHistory json final = some recent) ∧
      ∀ old, loadHistory json start = some old →
        loadHistory json final =
            some (recent ++ Recency.unused (calls.map (·.command)) old) ∧
          (old.Nodup → (recent ++ Recency.unused (calls.map (·.command)) old).Nodup) := by
  have spec := Recency.touch_latestFirst (calls.map (·.command))
  refine ⟨_, spec, ?_, ?_⟩
  · intro missing
    have empty : loadHistory json start = some [] := by
      rcases missing with rfl | rfl <;> rfl
    exact saveAll_touch calls empty run
  · intro old loaded
    rw [← Recency.touch_eq]
    exact ⟨saveAll_touch calls loaded run, fun distinct => Recency.touch_nodup distinct _⟩

/-- The disk that holds a list in the pretty layout. -/
def prettyDisk (commands : List Text) : HistoryDisk :=
  .file { bytes := Utf8.encode (PrettyJson.write "command".toList commands), readable := true }

/-- The commands of read entries. -/
@[simp] theorem entriesOf_commands (commands : List Text) :
    (entriesOf commands).map (·.command) = commands := by
  rw [entriesOf, List.map_map]
  exact List.map_id commands

/-- A list in the pretty layout is loaded. -/
theorem loadHistoryEntries_pretty (commands : List Text) :
    loadHistoryEntries prettyHistory (prettyDisk commands) = some (entriesOf commands) := by
  rw [prettyDisk, loadHistoryEntries, readToString, if_pos rfl, Utf8.decode_encode,
    Option.map_some, prettyHistory_fromStr, PrettyJson.read_write]
  rfl

/-- A list in the pretty layout is shown. -/
theorem loadHistory_pretty (commands : List Text) :
    loadHistory prettyHistory (prettyDisk commands) = some commands := by
  rw [loadHistory_eq, loadHistoryEntries_pretty, Option.map_some, entriesOf_commands]

/-- The text saved over a list in the pretty layout. -/
theorem savedText_pretty (command : Text) (cli : Cli) (commands : List Text) :
    savedText prettyHistory command cli (entriesOf commands) =
      some (PrettyJson.write "command".toList (Recency.toFront command commands)) := by
  rw [savedText, prettyHistory_toStringPretty, saveHistory_commands, entriesOf_commands]

/-- Without errors of the file system a save succeeds. -/
theorem saveRequest_pretty (command : Text) (cli : Cli) (commands : List Text) :
    saveRequest prettyHistory {} command cli (prettyDisk commands) =
      (true, prettyDisk (Recency.toFront command commands)) := by
  have ready : (prettyDisk commands).createDirAll = prettyDisk commands := rfl
  rw [saveRequest, if_neg (fun refused => HistoryDisk.noConfusion refused.1), ready, saveInto,
    loadHistoryEntries_pretty, Option.getD_some, savedText_pretty]
  simp only [fsWrite, Bool.false_eq_true, if_false, prettyDisk, HistoryDisk.create,
    HistoryDisk.writeAt, overwrite_empty]

/-- The list after three saves of two commands, from nothing. -/
theorem saved_history_two :
    ∃ recent, Recency.LatestFirst ["rcurl p a".toList, "rcurl p b".toList, "rcurl p a".toList]
        recent ∧
      loadHistory prettyHistory (prettyDisk ["rcurl p a".toList, "rcurl p b".toList]) =
        some recent := by
  have first : saveRequest prettyHistory {} "rcurl p a".toList {} .noDirectory =
      (true, prettyDisk ["rcurl p a".toList]) := rfl
  have run : saveAll prettyHistory
      [{ command := "rcurl p a".toList, cli := {} }, { command := "rcurl p b".toList, cli := {} },
        { command := "rcurl p a".toList, cli := {} }] .noDirectory =
      some (prettyDisk ["rcurl p a".toList, "rcurl p b".toList]) := by
    simp only [saveAll, first, saveRequest_pretty]
    rfl
  obtain ⟨recent, order, fresh, _⟩ := saved_history _ _ _ run
  exact ⟨recent, order, fresh (.inl rfl)⟩

end Rcurl
