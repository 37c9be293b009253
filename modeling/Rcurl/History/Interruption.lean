import Rcurl.History.SaveSteps

/-!
# Saves that stop

A save may stop after any step, by an error or because the process ends, and the next run meets what
it left. Nothing guards the file while it is rewritten: `interrupted_save` says what is safe (stopping
before the file is opened, or after its last byte) and what is left in between (no entry at all).
-/

namespace Rcurl

open ShellWords (Text)

variable {json : HistoryJson} {command : Text} {cli : Cli}

/-- Until the file is opened, the old list is loaded. -/
theorem SaveProgress.untouched {old : List Text} {phase : SavePhase} {disk : HistoryDisk}
    (progress : SaveProgress json command cli old false phase disk) :
    loadHistory json disk = some old := by
  cases progress with
  | started untouched => exact untouched
  | loaded read commands => rw [loadHistory_eq, read, Option.map_some, commands]
  | refused untouched => exact untouched

/-- Once the file is opened, a call that met no error is writing or is done. -/
theorem SaveProgress.writes {old : List Text} {phase : SavePhase} {disk : HistoryDisk}
    (progress : SaveProgress json command cli old true phase disk)
    (standing : phase ≠ .returned false) :
    phase = .returned true ∨ ∃ offset rest, phase = .writing offset rest := by
  cases progress with
  | writing torn => exact .inr ⟨_, _, rfl⟩
  | succeeded torn => exact .inl rfl
  | broken torn => contradiction

/-- With bytes left to write, the next load fails or shows nothing. -/
theorem SaveProgress.halfway {old : List Text} {opened : Bool} {offset : Nat} {rest : List UInt8}
    {disk : HistoryDisk}
    (progress : SaveProgress json command cli old opened (.writing offset rest) disk)
    (missing : rest ≠ []) (refuses : json.RefusesPrefixes) :
    loadHistory json disk = none ∨ loadHistory json disk = some [] := by
  cases progress with
  | writing torn => exact torn.incomplete missing refuses

/-- After the last byte, whether or not the call returns, the new list is loaded. -/
theorem SaveProgress.complete {old : List Text} {opened : Bool} {phase : SavePhase}
    {disk : HistoryDisk} (progress : SaveProgress json command cli old opened phase disk)
    (ended : phase = .returned true ∨ ∃ offset, phase = .writing offset []) :
    loadHistory json disk = some (Recency.toFront command old) := by
  cases progress with
  | started untouched => simp at ended
  | loaded read commands => simp at ended
  | writing torn =>
    rcases ended with returned | ⟨offset, same⟩
    · contradiction
    · rw [(SavePhase.writing.inj same).2] at torn
      exact torn.complete
  | succeeded torn => exact torn.complete
  | refused untouched => simp at ended
  | broken torn => simp at ended

/-- A later save keeps every entry of a history that was loaded whole. -/
theorem saveRequest_keeps {old : List Text} {disk after : HistoryDisk} {faults : SaveFaults}
    (whole : ∃ list, loadHistory json disk = some list ∧ ∀ entry ∈ old, entry ∈ list)
    (saved : saveRequest json faults command cli disk = (true, after)) :
    ∃ list, loadHistory json after = some list ∧ ∀ entry ∈ old, entry ∈ list := by
  obtain ⟨list, loaded, kept⟩ := whole
  refine ⟨_, saveRequest_ok loaded saved, fun entry member => ?_⟩
  rw [Recency.mem_toFront]
  exact .inr (kept entry member)

/-- Only the failing call ends with an error, and it leaves the disk as it is. -/
theorem advance_refused {move : SaveMove} {phase : SavePhase} {disk after : HistoryDisk}
    (taken : advance json command cli move phase disk = some (.returned false, after)) :
    move = .fail ∧ after = disk := by
  cases move with
  | fail => cases phase <;> simp_all [advance]
  | createDirAll => cases phase <;> simp [advance] at taken
  | load => cases phase <;> simp [advance] at taken
  | create =>
    cases phase with
    | loaded history =>
      obtain ⟨text, _, later⟩ := Option.bind_eq_some_iff.mp taken
      obtain ⟨opened, _, same⟩ := Option.map_eq_some_iff.mp later
      exact absurd (Prod.mk.inj same).1 SavePhase.noConfusion
    | started => contradiction
    | writing offset rest => contradiction
    | returned ok => contradiction
  | write count => cases phase <;> simp [advance] at taken
  | finish =>
    cases phase with
    | writing offset rest => cases rest <;> simp [advance] at taken
    | started => contradiction
    | loaded history => contradiction
    | returned ok => contradiction

/-- A call that is over takes no further step. -/
theorem runMoves_returned {moves : List SaveMove} {ok : Bool} {last : SavePhase}
    {disk left : HistoryDisk}
    (run : runMoves json command cli moves (.returned ok) disk = some (last, left)) : moves = [] := by
  cases moves with
  | nil => rfl
  | cons move moves => cases move <;> contradiction

/-- Where a call stood when it stopped: the phase its steps lead to, but for the call that failed. -/
def StandsAt (json : HistoryJson) (command : Text) (cli : Cli) (moves : List SaveMove)
    (disk : HistoryDisk) (reached : SavePhase) (left : HistoryDisk) : Prop :=
  reached ≠ .returned false ∧
    ∃ steps, (moves = steps ∨ moves = steps ++ [.fail]) ∧
      runMoves json command cli steps .started disk = some (reached, left)

/-- Every run that ends with an error stood somewhere before it. -/
theorem runMoves_failed (moves : List SaveMove) :
    ∀ {phase : SavePhase} {disk left : HistoryDisk}, phase ≠ .returned false →
      runMoves json command cli moves phase disk = some (.returned false, left) →
        ∃ steps reached, reached ≠ .returned false ∧ moves = steps ++ [.fail] ∧
          runMoves json command cli steps phase disk = some (reached, left) := by
  induction moves with
  | nil =>
    intro phase disk left going run
    exact absurd (Prod.mk.inj (Option.some.inj run)).1 going
  | cons move moves ih =>
    intro phase disk left going run
    obtain ⟨⟨next, between⟩, taken, later⟩ := Option.bind_eq_some_iff.mp run
    by_cases refused : next = .returned false
    · rw [refused] at taken later
      have ended : moves = [] := runMoves_returned later
      have failing := advance_refused taken
      rw [ended] at later
      have kept : between = left := (Prod.mk.inj (Option.some.inj later)).2
      refine ⟨[], phase, going, ?_, ?_⟩
      · rw [failing.1, ended]
        rfl
      · rw [← kept, failing.2]
        rfl
    · obtain ⟨steps, reached, standing, shape, steady⟩ := ih refused later
      refine ⟨move :: steps, reached, standing, ?_, ?_⟩
      · rw [shape]
        rfl
      · rw [runMoves, taken]
        exact steady

/-- A call that stops stood somewhere. -/
theorem standsAt_of_run {moves : List SaveMove} {phase : SavePhase} {disk left : HistoryDisk}
    (run : runMoves json command cli moves .started disk = some (phase, left)) :
    ∃ reached, StandsAt json command cli moves disk reached left := by
  by_cases refused : phase = .returned false
  · rw [refused] at run
    obtain ⟨steps, reached, standing, shape, steady⟩ :=
      runMoves_failed moves SavePhase.noConfusion run
    exact ⟨reached, standing, steps, .inr shape, steady⟩
  · exact ⟨phase, refused, moves, .inl rfl, run⟩

/-- The progress a call had made where it stood. -/
theorem StandsAt.progress {moves : List SaveMove} {disk left : HistoryDisk} {reached : SavePhase}
    {old : List Text} (stands : StandsAt json command cli moves disk reached left)
    (loaded : loadHistory json disk = some old) :
    SaveProgress json command cli old (decide (.create ∈ moves)) reached left := by
  obtain ⟨_, steps, shape, run⟩ := stands
  have begun : SaveProgress json command cli old false .started disk := .started loaded
  have progress := begun.run steps run
  rw [Bool.false_or] at progress
  have same : SaveMove.create ∈ moves ↔ SaveMove.create ∈ steps := by
    rcases shape with rfl | rfl <;> simp
  rw [decide_eq_decide.mpr same]
  exact progress

/-- What a stopped save leaves. Before the file is opened the next load shows the old list, and
after the last byte the new one; from both no later save drops an old entry. Where the call stood
in between, the next load fails or shows nothing, never a part of a list. -/
theorem interrupted_save (refuses : json.RefusesPrefixes) {disk left : HistoryDisk}
    {old : List Text} (loaded : loadHistory json disk = some old) (moves : List SaveMove)
    (phase : SavePhase) (run : runMoves json command cli moves .started disk = some (phase, left)) :
    ∃ reached, StandsAt json command cli moves disk reached left ∧
      (.create ∉ moves → loadHistory json left = some old) ∧
      (.create ∈ moves →
        reached = .returned true ∨ ∃ offset rest, reached = .writing offset rest) ∧
      (reached = .returned true ∨ (∃ offset, reached = .writing offset []) →
        loadHistory json left = some (Recency.toFront command old)) ∧
      (∀ offset rest, reached = .writing offset rest → rest ≠ [] →
        loadHistory json left = none ∨ loadHistory json left = some []) ∧
      (.create ∉ moves ∨ reached = .returned true ∨ (∃ offset, reached = .writing offset []) →
        ∀ faults later parsed after, saveRequest json faults later parsed left = (true, after) →
          ∃ list, loadHistory json after = some list ∧ ∀ entry ∈ old, entry ∈ list) := by
  obtain ⟨reached, stands⟩ := standsAt_of_run run
  have progress := stands.progress loaded
  have before : .create ∉ moves → loadHistory json left = some old := by
    intro absent
    rw [decide_eq_false absent] at progress
    exact progress.untouched
  refine ⟨reached, stands, before, ?_, progress.complete, ?_, ?_⟩
  · intro opened
    rw [decide_eq_true opened] at progress
    exact progress.writes stands.1
  · intro offset rest same missing
    rw [same] at progress
    exact progress.halfway missing refuses
  · intro safe faults later parsed after saved
    refine saveRequest_keeps ?_ saved
    rcases safe with absent | ended
    · exact ⟨old, before absent, fun entry member => member⟩
    · exact ⟨_, progress.complete ended, fun entry member => Recency.mem_toFront.mpr (.inr member)⟩

/-- A save that fails after loading leaves the one entry that was there. -/
theorem interrupted_save_loaded :
    ∃ phase left, runMoves prettyHistory "rcurl p b".toList {} [.load, .fail] .started
        (prettyDisk ["rcurl p a".toList]) = some (phase, left) ∧
      loadHistory prettyHistory left = some ["rcurl p a".toList] := by
  have run : runMoves prettyHistory "rcurl p b".toList {} [.load, .fail] .started
      (prettyDisk ["rcurl p a".toList]) =
        some (.returned false, prettyDisk ["rcurl p a".toList]) := rfl
  obtain ⟨_, _, before, _⟩ :=
    interrupted_save prettyHistory_refuses (loadHistory_pretty _) _ _ run
  exact ⟨_, _, run, before (by decide)⟩

/-- A save that stops right after opening the file leaves neither the old nor the new list. -/
theorem interrupted_save_truncated :
    ¬∀ moves phase left, runMoves prettyHistory "rcurl p b".toList {} moves .started
        (prettyDisk ["rcurl p a".toList]) = some (phase, left) →
      loadHistory prettyHistory left = some ["rcurl p a".toList] ∨
        loadHistory prettyHistory left = some ["rcurl p b".toList, "rcurl p a".toList] := by
  intro atomic
  have opened : runMoves prettyHistory "rcurl p b".toList {} [.load, .create] .started
      (prettyDisk ["rcurl p a".toList]) = some (.writing 0 (Utf8.encode (PrettyJson.write
        "command".toList ["rcurl p b".toList, "rcurl p a".toList])),
          .file { bytes := [], readable := true }) := by
    have present : prettyDisk ["rcurl p a".toList] ≠ .noDirectory := HistoryDisk.noConfusion
    rw [runMoves, advance, if_neg present, loadHistoryEntries_pretty]
    rfl
  have empty : loadHistory prettyHistory (.file { bytes := [], readable := true }) = some [] := by
    rw [loadHistory, readToString, if_pos rfl, show ([] : List UInt8) = Utf8.encode [] from rfl,
      Utf8.decode_encode]
    rfl
  rcases atomic _ _ _ opened with kept | replaced
  · rw [empty] at kept
    contradiction
  · rw [empty] at replaced
    contradiction

end Rcurl
