import Rcurl.History.ReplayQuick
import Rcurl.History.SavedHistory

/-!
# What a replay does to the history

`interactive_mode` decodes the selected line, encodes the result again and saves it. The history is
only reordered when the new line is the old one. `replay_self_iff` says which command lines read back
from their own line, for requests with and without a URL and for quick commands, and
`replay_reorders_iff` that a replay reorders exactly when the selected line is the line of one of them.
-/

namespace Rcurl

open ShellWords

/-- A command line that reads back from its own line. -/
def SelfReading (cli : Cli) : Prop :=
  match cli.quickCmd, cli.url with
  | some quickCmd, _ =>
    cli = { quickCmd := some quickCmd } ∧ ReplayableQuick quickCmd ∧ quickCmd ≠ .port none true
  | none, some url => ReplayableRequest cli url
  | none, none => ∀ method, cli.methodOption = some method →
      if optionWords cli = [] then SelfWord method else Plain method

/-- A line that some command line reads back from. -/
def Canonical (line : Text) : Prop := ∃ cli, SelfReading cli ∧ commandFromCli cli = line

/-! ## Requests without a URL -/

section Request

variable {cli : Cli}

/-- The words of the options parse back to a request without a URL. -/
theorem parse_urlless (request : cli.quickCmd = none) (absent : cli.url = none) :
    parseWords (valueWords "-X".toList cli.methodOption ++ optionWords cli) {} = some cli := by
  have parsed := parse_optionWords cli [] request
  rw [List.append_nil, parseWords] at parsed
  rw [parsed]
  cases cli
  simp_all

/-- Without a URL, and with a plain method, the line reads back. -/
theorem replay_urlless_plain (request : cli.quickCmd = none) (absent : cli.url = none)
    (plain : ∀ method, cli.methodOption = some method → Plain method) :
    replay (commandFromCli cli) = some cli := by
  rw [replay, commandFromCli_request request, absent, split, plain_writes plain_program, pushUrl,
    List.append_nil, (line_spells cli plain).scan_end]
  exact parse_urlless request absent

/-- When nothing follows the method, the line reads back exactly when the method splits to itself. -/
theorem replay_method_last {method : Text} (request : cli.quickCmd = none) (absent : cli.url = none)
    (given : cli.methodOption = some method) (unset : optionWords cli = []) :
    replay (commandFromCli cli) = some cli ↔ SelfWord method := by
  have empty : pushOptions cli ++ pushUrl cli.url = [] := by
    rcases (pushOptions_spells cli).opens with ⟨_, text⟩ | ⟨set, _⟩
    · rw [text, absent]
      rfl
    · exact (set unset).elim
  have words := parse_urlless request absent
  rw [given, unset, List.append_nil, valueWords] at words
  rw [replay, split_method cli method [] request given empty, List.append_nil, Option.bind_map,
    ← split_eq_self_iff]
  constructor
  · intro back
    obtain ⟨read, known, parsed⟩ := Option.bind_eq_some_iff.mp back
    obtain ⟨others, rfl⟩ := method_word request given parsed
    rw [known, split_eq_of_mem known List.mem_cons_self]
  · intro read
    rw [read]
    exact words

/-- A request without a URL reads back exactly when its method does, alone or before options. -/
theorem replay_urlless_iff (request : cli.quickCmd = none) (absent : cli.url = none) :
    replay (commandFromCli cli) = some cli ↔ ∀ method, cli.methodOption = some method →
      if optionWords cli = [] then SelfWord method else Plain method := by
  cases given : cli.methodOption with
  | none =>
    refine iff_of_true (replay_urlless_plain request absent ?_) nofun
    intro method known
    rw [given] at known
    contradiction
  | some method =>
    have here : ∀ Holds : Text → Prop, (∀ other, some method = some other → Holds other) ↔
        Holds method := fun Holds => by simp
    rw [here]
    rcases (pushOptions_spells cli).opens with ⟨unset, _⟩ | ⟨set, rest, text⟩
    · rw [if_pos unset]
      exact replay_method_last request absent given unset
    · rw [if_neg set]
      constructor
      · have shape : pushOptions cli ++ pushUrl cli.url = ' ' :: rest := by
          rw [text, absent]
          exact List.append_nil _
        exact plain_of_replay cli method rest request given shape
      · intro plain
        apply replay_urlless_plain request absent
        intro other known
        rw [given] at known
        rw [← Option.some.inj known]
        exact plain

/-- A quick command reads back exactly when its argument needs no quoting and nothing else is set:
its line holds no option but `--kill`, and that one only after a port. -/
theorem replay_quick_self_iff {quickCmd : QuickCommand} (quick : cli.quickCmd = some quickCmd) :
    replay (commandFromCli cli) = some cli ↔
      cli = { quickCmd := some quickCmd } ∧ ReplayableQuick quickCmd ∧ quickCmd ≠ .port none true := by
  rw [commandFromCli_quick quick]
  constructor
  · intro back
    have dispatched : executeRequest (fun _ => none) cli = quickCmd.handler :=
      executeRequest_quick quick
    have replayable := replayable_of_replay back dispatched
    have written : quickCmd ≠ .port none true := by
      rintro rfl
      have listed : replay ("rcurl".toList ++ pushQuick (.port none false)) =
          some { quickCmd := some (.port none false) } :=
        replay_quick_self trivial (by decide)
      rw [← Option.some.inj (listed.symm.trans back), Option.some.injEq] at quick
      contradiction
    have known := (replay_quick_self replayable written).symm.trans back
    exact ⟨(Option.some.inj known).symm, replayable, written⟩
  · rintro ⟨alone, replayable, written⟩
    rw [alone]
    exact replay_quick_self replayable written

/-- Which command lines read back from their own line. -/
theorem replay_self_iff : replay (commandFromCli cli) = some cli ↔ SelfReading cli := by
  rw [SelfReading]
  cases quick : cli.quickCmd with
  | some quickCmd => exact replay_quick_self_iff quick
  | none =>
    cases target : cli.url with
    | some url => exact replay_request_iff cli url quick target
    | none => exact replay_urlless_iff quick target

/-- A line that is decoded is encoded to itself exactly when it is canonical. -/
theorem reencode_iff {line : Text} (decoded : replay line = some cli) :
    commandFromCli cli = line ↔ Canonical line := by
  constructor
  · intro same
    refine ⟨cli, replay_self_iff.mp ?_, same⟩
    rw [same]
    exact decoded
  · rintro ⟨other, self, same⟩
    have back := replay_self_iff.mpr self
    rw [same, decoded, Option.some.injEq] at back
    rw [back]
    exact same

end Request

/-! ## Replays in a run -/

section Replays

variable (json : HistoryJson)

/-- One call of the program: its command line, what is selected if it asks, and the errors of the
file system. -/
structure Invocation where
  /-- The command line. -/
  cli : Cli
  /-- The entry that is selected from the history. -/
  selected : Option Text := none
  /-- The errors that a save meets. -/
  faults : SaveFaults := {}

/-- `interactive_mode` up to its save: none when it ends before, else whether the save returned `Ok`,
and the disk after it. -/
def interactiveMode (selected : Option Text) (faults : SaveFaults) (disk : HistoryDisk) :
    Option (Bool × HistoryDisk) :=
  match selected with
  | none => none
  | some entry =>
    if entry ∈ (loadHistory json disk).getD [] then
      (replay entry).map fun cli => saveRequest json faults (commandFromCli cli) cli disk
    else none

/-- `do_request` up to its save. -/
def doRequest (invocation : Invocation) (disk : HistoryDisk) : Option (Bool × HistoryDisk) :=
  if invocation.cli.url = none ∧ invocation.cli.quickCmd = none then
    interactiveMode json invocation.selected invocation.faults disk
  else
    some (saveRequest json invocation.faults (commandFromCli invocation.cli) invocation.cli disk)

/-- The disk after some calls; a failed save is only warned about. -/
def diskAfter (invocations : List Invocation) (start : HistoryDisk) : HistoryDisk :=
  invocations.foldl (fun disk invocation => ((doRequest json invocation disk).map (·.2)).getD disk)
    start

variable {json}

/-- A replay that is saved was decoded from an entry of the history. -/
theorem interactiveMode_saved {entry : Text} {faults : SaveFaults} {disk after : HistoryDisk}
    (saved : interactiveMode json (some entry) faults disk = some (true, after)) :
    ∃ cli old, loadHistory json disk = some old ∧ entry ∈ old ∧ replay entry = some cli ∧
      loadHistory json after = some (Recency.toFront (commandFromCli cli) old) := by
  rw [interactiveMode] at saved
  split_ifs at saved with member
  obtain ⟨cli, decoded, done⟩ := Option.map_eq_some_iff.mp saved
  cases loaded : loadHistory json disk with
  | none =>
    rw [loaded] at member
    contradiction
  | some old =>
    rw [loaded] at member
    exact ⟨cli, old, rfl, member, decoded, saveRequest_ok loaded done⟩

/-- A replay that is saved moves its entry to the front of the history and changes nothing else,
exactly when the entry is canonical; and its line is encoded to itself exactly then. This holds after
any calls, of any entry that is selected. -/
theorem replay_reorders_iff (json : HistoryJson) (invocations : List Invocation)
    (start after : HistoryDisk) (entry : Text) (faults : SaveFaults)
    (saved : interactiveMode json (some entry) faults (diskAfter json invocations start) =
      some (true, after)) :
    (loadHistory json after =
        (loadHistory json (diskAfter json invocations start)).map (Recency.toFront entry) ↔
      Canonical entry) ∧
    ∀ cli, replay entry = some cli → (commandFromCli cli = entry ↔ Canonical entry) := by
  obtain ⟨cli, old, loaded, member, decoded, shown⟩ := interactiveMode_saved saved
  refine ⟨?_, fun other known => reencode_iff known⟩
  rw [loaded, shown, Option.map_some, Option.some.injEq, ← reencode_iff decoded]
  constructor
  · intro same
    exact (List.cons.inj same).1
  · intro same
    rw [same]

end Replays

/-! ## A plain URL, and one with two apostrophes -/

/-- The history after one request, and after its replay. -/
theorem replay_plain (line : Text) (cli again : Cli)
    (fresh : saveRequest prettyHistory {} line cli .noDirectory = (true, prettyDisk [line]))
    (recorded : commandFromCli cli = line) (given : cli.url ≠ none)
    (decoded : replay line = some again) :
    diskAfter prettyHistory [{ cli }] .noDirectory = prettyDisk [line] ∧
      interactiveMode prettyHistory (some line) {}
        (diskAfter prettyHistory [{ cli }] .noDirectory) =
          some (true, prettyDisk (Recency.toFront (commandFromCli again) [line])) := by
  have disk : diskAfter prettyHistory [{ cli }] .noDirectory = prettyDisk [line] := by
    rw [diskAfter, List.foldl_cons, List.foldl_nil, doRequest, if_neg (fun none => given none.1),
      recorded, fresh]
    rfl
  refine ⟨disk, ?_⟩
  rw [disk, interactiveMode, loadHistory_pretty, Option.getD_some,
    if_pos (List.mem_singleton.mpr rfl), decoded, Option.map_some, saveRequest_pretty]

/-- `rcurl http://h/` is recorded and replayed. -/
theorem replay_reorders_plain : loadHistory prettyHistory (prettyDisk ["rcurl http://h/".toList]) =
    (loadHistory prettyHistory
      (diskAfter prettyHistory [{ cli := { url := some "http://h/".toList } }] .noDirectory)).map
        (Recency.toFront "rcurl http://h/".toList) := by
  have run := replay_plain "rcurl http://h/".toList { url := some "http://h/".toList }
    { url := some "http://h/".toList } rfl (by decide) (by decide) (by decide)
  have canonical : Canonical "rcurl http://h/".toList :=
    ⟨{ url := some "http://h/".toList }, ⟨nofun, .inl (by decide), by decide, by decide⟩,
      by decide⟩
  exact (replay_reorders_iff prettyHistory _ _ _ _ _ run.2).1.mpr canonical

/-- `rcurl "http://h/a'b'c"` is recorded, and its replay adds another entry. -/
theorem replay_adds_entry : ¬ ∀ (invocations : List Invocation) (start after : HistoryDisk)
    (entry : Text) (faults : SaveFaults),
    interactiveMode prettyHistory (some entry) faults (diskAfter prettyHistory invocations start) =
      some (true, after) →
        loadHistory prettyHistory after =
          (loadHistory prettyHistory (diskAfter prettyHistory invocations start)).map
            (Recency.toFront entry) := by
  intro reorders
  have run := replay_plain "rcurl http://h/a'b'c".toList { url := some "http://h/a'b'c".toList }
    { url := some "http://h/abc".toList } rfl (by decide) (by decide) (by decide)
  have kept := reorders _ _ _ _ _ run.2
  rw [run.1, loadHistory_pretty, loadHistory_pretty] at kept
  exact absurd kept (by decide)

end Rcurl
