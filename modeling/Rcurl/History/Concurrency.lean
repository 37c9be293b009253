import Mathlib.Data.Finset.Update
import Rcurl.History.Interruption

/-!
# Saves at the same time

Any number of processes, each in one call of `save_request` on the same file, in any order of their
steps. The file is not locked: `lost_update` is a run in which two processes load before either
writes. When a process loads only while no other one is between its load and its return, nothing is
lost: `saves_keep_all`.
-/

namespace Rcurl

open ShellWords (Text)

variable {ι : Type} [DecidableEq ι]

/-- The processes and the file they share. -/
@[ext]
structure SaveSystem (ι : Type) where
  /-- Where each call stands. -/
  phase : ι → SavePhase
  /-- The file. -/
  disk : HistoryDisk

/-- One process reaches a phase and leaves a disk. -/
def SaveSystem.put (system : SaveSystem ι) (process : ι) (phase : SavePhase) (disk : HistoryDisk) :
    SaveSystem ι := { phase := Function.update system.phase process phase, disk }

@[simp] theorem SaveSystem.put_disk (system : SaveSystem ι) (process : ι) (phase : SavePhase)
    (disk : HistoryDisk) : (system.put process phase disk).disk = disk := rfl

@[simp] theorem SaveSystem.put_self (system : SaveSystem ι) (process : ι) (phase : SavePhase)
    (disk : HistoryDisk) : (system.put process phase disk).phase process = phase :=
  Function.update_self _ _ _

theorem SaveSystem.put_other (system : SaveSystem ι) {process other : ι} (apart : other ≠ process)
    (phase : SavePhase) (disk : HistoryDisk) :
    (system.put process phase disk).phase other = system.phase other :=
  Function.update_of_ne apart _ _

variable (json : HistoryJson) (command : ι → Text) (cli : ι → Cli)

/-- One process takes one step. -/
def SaveSystem.step (system : SaveSystem ι) (process : ι) (move : SaveMove) :
    Option (SaveSystem ι) :=
  (advance json (command process) (cli process) move (system.phase process) system.disk).map
    fun next => system.put process next.1 next.2

/-- Steps of the processes, in order. -/
def SaveSystem.run (system : SaveSystem ι) : List (ι × SaveMove) → Option (SaveSystem ι)
  | [] => some system
  | (process, move) :: moves => (system.step json command cli process move).bind (·.run moves)

/-- Every process is about to start. -/
def SaveSystem.initial (disk : HistoryDisk) : SaveSystem ι := { phase := fun _ => .started, disk }

/-- A call between its load and its return. -/
def SavePhase.inside : SavePhase → Bool
  | .loaded _ | .writing _ _ => true
  | .started | .returned _ => false

/-- Steps in which a process loads only while no other one is inside. -/
def SaveSystem.TakesTurns (system : SaveSystem ι) : List (ι × SaveMove) → Prop
  | [] => True
  | (process, move) :: moves =>
    (move = .load → ∀ other, other ≠ process → (system.phase other).inside = false) ∧
      (system.step json command cli process move).elim True (·.TakesTurns moves)

/-- A list with every old entry and the command of every call that returned `Ok`. -/
def SaveSystem.Covered (system : SaveSystem ι) (old list : List Text) : Prop :=
  (∀ entry ∈ old, entry ∈ list) ∧
    ∀ process, system.phase process = .returned true → command process ∈ list

/-- What holds while the processes take turns. -/
inductive SaveSystem.Serial (old : List Text) (system : SaveSystem ι) : Prop
  /-- Nobody is inside, and nothing is lost. -/
  | idle (list : List Text) (loaded : loadHistory json system.disk = some list)
    (outside : ∀ process, (system.phase process).inside = false)
    (covered : system.Covered command old list)
  /-- One process is inside, and what it loaded loses nothing. -/
  | busy (owner : ι) (opened : Bool) (list : List Text)
    (progress : SaveProgress json (command owner) (cli owner) list opened (system.phase owner)
      system.disk)
    (within : (system.phase owner).inside = true)
    (outside : ∀ other, other ≠ owner → (system.phase other).inside = false)
    (covered : system.Covered command old list)
  /-- A call has returned an error, so not all return `Ok`. -/
  | failed (process : ι) (error : system.phase process = .returned false)

variable {json command cli}

/-- A step is a step of its process. -/
theorem SaveSystem.step_eq_some {system next : SaveSystem ι} {process : ι} {move : SaveMove} :
    system.step json command cli process move = some next ↔
      ∃ phase disk, advance json (command process) (cli process) move (system.phase process)
          system.disk = some (phase, disk) ∧ next = system.put process phase disk := by
  rw [SaveSystem.step, Option.map_eq_some_iff]
  constructor
  · rintro ⟨⟨phase, disk⟩, taken, rfl⟩
    exact ⟨phase, disk, taken, rfl⟩
  · rintro ⟨phase, disk, taken, rfl⟩
    exact ⟨(phase, disk), taken, rfl⟩

/-- Progress survives another process that makes sure the directory exists. -/
theorem SaveProgress.createDirAll {command : Text} {cli : Cli} {old : List Text} {opened : Bool}
    {phase : SavePhase} {disk : HistoryDisk}
    (progress : SaveProgress json command cli old opened phase disk) :
    SaveProgress json command cli old opened phase disk.createDirAll := by
  have kept : loadHistory json disk = some old → loadHistory json disk.createDirAll = some old := by
    intro untouched
    rw [loadHistory_createDirAll, untouched]
  have same : ∀ {written rest}, Torn json command cli old written rest disk →
      Torn json command cli old written rest disk.createDirAll := by
    intro written rest torn
    obtain ⟨history, text, commands, saved, whole, rfl⟩ := torn
    exact ⟨history, text, commands, saved, whole, rfl⟩
  cases progress with
  | started untouched => exact .started (kept untouched)
  | loaded read commands =>
    apply SaveProgress.loaded _ commands
    rw [loadHistoryEntries_createDirAll, read]
  | writing torn => exact .writing (same torn)
  | succeeded torn => exact .succeeded (same torn)
  | refused untouched => exact .refused (kept untouched)
  | broken torn => exact .broken (same torn)

/-- A process outside makes the directory, loads, or fails. -/
theorem advance_outside {command : Text} {cli : Cli} {move : SaveMove} {phase next : SavePhase}
    {disk after : HistoryDisk} (outside : phase.inside = false)
    (taken : advance json command cli move phase disk = some (next, after)) :
    phase = .started ∧ ((move = .createDirAll ∧ next = .started ∧ after = disk.createDirAll) ∨
      (move = .load ∧ after = disk ∧ next = .loaded ((loadHistoryEntries json disk).getD [])) ∨
        next = .returned false) := by
  cases phase with
  | started =>
    refine ⟨rfl, ?_⟩
    cases move <;> simp only [advance, Option.some.injEq, Prod.mk.injEq, reduceCtorEq] at taken
    · exact .inl ⟨rfl, taken.1.symm, taken.2.symm⟩
    · rw [Option.ite_none_left_eq_some, Option.some.injEq, Prod.mk.injEq] at taken
      exact .inr (.inl ⟨rfl, taken.2.2.symm, taken.2.1.symm⟩)
    · exact .inr (.inr taken.1.symm)
  | loaded history => contradiction
  | writing offset rest => contradiction
  | returned ok => cases move <;> contradiction

/-- A process inside stays inside, returns `Ok` or fails. -/
theorem advance_inside {command : Text} {cli : Cli} {move : SaveMove} {phase next : SavePhase}
    {disk after : HistoryDisk} (within : phase.inside = true)
    (taken : advance json command cli move phase disk = some (next, after)) :
    next.inside = true ∨ next = .returned true ∨ next = .returned false := by
  cases phase with
  | started => contradiction
  | loaded history =>
    cases move <;> simp only [advance, Option.some.injEq, Prod.mk.injEq, reduceCtorEq] at taken
    · obtain ⟨text, _, later⟩ := Option.bind_eq_some_iff.mp taken
      obtain ⟨opened, _, same⟩ := Option.map_eq_some_iff.mp later
      rw [← (Prod.mk.inj same).1]
      exact .inl rfl
    · exact .inr (.inr taken.1.symm)
  | writing offset rest =>
    cases move <;> simp only [advance, Option.some.injEq, Prod.mk.injEq, reduceCtorEq] at taken
    · rw [← taken.1]
      exact .inl rfl
    · cases rest with
      | nil => exact .inr (.inl (Prod.mk.inj (Option.some.inj taken)).1.symm)
      | cons byte rest => contradiction
    · exact .inr (.inr taken.1.symm)
  | returned ok => contradiction

/-- A call that has returned takes no step. -/
theorem advance_returned {command : Text} {cli : Cli} {move : SaveMove} {ok : Bool}
    {disk : HistoryDisk} : advance json command cli move (.returned ok) disk = none := by
  cases move <;> rfl

/-- A list that covers a system covers it after a step that returns `Ok` only for a listed
command. -/
theorem SaveSystem.Covered.put {system : SaveSystem ι} {old list : List Text}
    (covered : system.Covered command old list) {process : ι} {phase : SavePhase}
    (disk : HistoryDisk) (listed : phase = .returned true → command process ∈ list) :
    (system.put process phase disk).Covered command old list := by
  refine ⟨covered.1, fun other ended => ?_⟩
  by_cases same : other = process
  · rw [same, SaveSystem.put_self] at ended
    rw [same]
    exact listed ended
  · rw [SaveSystem.put_other system same] at ended
    exact covered.2 other ended

omit [DecidableEq ι] in
/-- A larger list covers as well. -/
theorem SaveSystem.Covered.grow {system : SaveSystem ι} {old list larger : List Text}
    (covered : system.Covered command old list) (grown : ∀ entry ∈ list, entry ∈ larger) :
    system.Covered command old larger :=
  ⟨fun entry member => grown entry (covered.1 entry member),
    fun process ended => grown _ (covered.2 process ended)⟩

/-- Only the process that takes the step can change sides. -/
theorem SaveSystem.put_outside {system : SaveSystem ι} {process : ι} {phase : SavePhase}
    (disk : HistoryDisk) (outside : phase.inside = false) {other : ι}
    (before : other ≠ process → (system.phase other).inside = false) :
    ((system.put process phase disk).phase other).inside = false := by
  by_cases same : other = process
  · rw [same, SaveSystem.put_self]
    exact outside
  · rw [SaveSystem.put_other system same]
    exact before same

section Step

variable {old : List Text} {system next : SaveSystem ι} {process : ι} {move : SaveMove}

/-- A step while nobody is inside. -/
theorem SaveSystem.Serial.step_idle {list : List Text}
    (loaded : loadHistory json system.disk = some list)
    (outside : ∀ process, (system.phase process).inside = false)
    (covered : system.Covered command old list)
    (taken : system.step json command cli process move = some next) :
    next.Serial json command cli old := by
  obtain ⟨phase, disk, moved, rfl⟩ := SaveSystem.step_eq_some.mp taken
  obtain ⟨_, ⟨_, rfl, rfl⟩ | ⟨_, rfl, rfl⟩ | rfl⟩ := advance_outside (outside process) moved
  · apply SaveSystem.Serial.idle list
    · rw [SaveSystem.put_disk, loadHistory_createDirAll, loaded]
    · exact fun other => SaveSystem.put_outside _ rfl fun _ => outside other
    · exact covered.put _ SavePhase.noConfusion
  · have entries := loaded
    rw [loadHistory_eq, Option.map_eq_some_iff] at entries
    obtain ⟨history, read, commands⟩ := entries
    rw [read, Option.getD_some]
    apply SaveSystem.Serial.busy process false list
    · rw [SaveSystem.put_self]
      exact .loaded read commands
    · rw [SaveSystem.put_self]
      rfl
    · intro other apart
      rw [SaveSystem.put_other system apart]
      exact outside other
    · exact covered.put _ SavePhase.noConfusion
  · exact .failed process (system.put_self _ _ _)

/-- A step of the process that is inside. -/
theorem SaveSystem.Serial.step_owner {opened : Bool} {list : List Text}
    (progress : SaveProgress json (command process) (cli process) list opened
      (system.phase process) system.disk)
    (within : (system.phase process).inside = true)
    (outside : ∀ other, other ≠ process → (system.phase other).inside = false)
    (covered : system.Covered command old list)
    (taken : system.step json command cli process move = some next) :
    next.Serial json command cli old := by
  obtain ⟨phase, disk, moved, rfl⟩ := SaveSystem.step_eq_some.mp taken
  have kept := progress.step moved
  rcases advance_inside within moved with stays | rfl | rfl
  · apply SaveSystem.Serial.busy process _ list
    · rw [SaveSystem.put_self]
      exact kept
    · rw [SaveSystem.put_self]
      exact stays
    · intro other apart
      rw [SaveSystem.put_other system apart]
      exact outside other apart
    · apply covered.put
      intro ended
      rw [ended] at stays
      contradiction
  · apply SaveSystem.Serial.idle (Recency.toFront (command process) list)
    · exact kept.complete (.inl rfl)
    · exact fun other => SaveSystem.put_outside _ rfl (outside other)
    · apply SaveSystem.Covered.put
      · exact covered.grow fun entry member => Recency.mem_toFront.mpr (.inr member)
      · exact fun _ => Recency.mem_toFront.mpr (.inl rfl)
  · exact .failed process (system.put_self _ _ _)

/-- A step of another process than the one inside. -/
theorem SaveSystem.Serial.step_other {owner : ι} {opened : Bool} {list : List Text}
    (progress : SaveProgress json (command owner) (cli owner) list opened (system.phase owner)
      system.disk)
    (within : (system.phase owner).inside = true)
    (outside : ∀ other, other ≠ owner → (system.phase other).inside = false)
    (covered : system.Covered command old list) (apart : process ≠ owner)
    (turn : move = .load → ∀ other, other ≠ process → (system.phase other).inside = false)
    (taken : system.step json command cli process move = some next) :
    next.Serial json command cli old := by
  obtain ⟨phase, disk, moved, rfl⟩ := SaveSystem.step_eq_some.mp taken
  obtain ⟨_, ⟨_, rfl, rfl⟩ | ⟨loads, _, _⟩ | rfl⟩ := advance_outside (outside process apart) moved
  · apply SaveSystem.Serial.busy owner opened list
    · rw [SaveSystem.put_other system apart.symm]
      exact progress.createDirAll
    · rw [SaveSystem.put_other system apart.symm]
      exact within
    · intro other distinct
      exact SaveSystem.put_outside _ rfl fun _ => outside other distinct
    · exact covered.put _ SavePhase.noConfusion
  · have idle := turn loads owner apart.symm
    rw [within] at idle
    contradiction
  · exact .failed process (system.put_self _ _ _)

/-- A step taken in turn loses nothing. -/
theorem SaveSystem.Serial.step (serial : system.Serial json command cli old)
    (turn : move = .load → ∀ other, other ≠ process → (system.phase other).inside = false)
    (taken : system.step json command cli process move = some next) :
    next.Serial json command cli old := by
  cases serial with
  | idle list loaded outside covered => exact .step_idle loaded outside covered taken
  | busy owner opened list progress within outside covered =>
    by_cases same : process = owner
    · subst same
      exact .step_owner progress within outside covered taken
    · exact .step_other progress within outside covered same turn taken
  | failed failing error =>
    obtain ⟨phase, disk, moved, rfl⟩ := SaveSystem.step_eq_some.mp taken
    have apart : failing ≠ process := by
      intro same
      rw [← same, error, advance_returned] at moved
      contradiction
    apply SaveSystem.Serial.failed failing
    rw [SaveSystem.put_other system apart, error]

end Step

/-- A run taken in turn loses nothing. -/
theorem SaveSystem.Serial.run {old : List Text} (moves : List (ι × SaveMove)) :
    ∀ {system final : SaveSystem ι}, system.Serial json command cli old →
      system.TakesTurns json command cli moves → system.run json command cli moves = some final →
        final.Serial json command cli old := by
  induction moves with
  | nil =>
    intro system final serial _ run
    rw [← Option.some.inj run]
    exact serial
  | cons head moves ih =>
    intro system final serial turns run
    obtain ⟨process, move⟩ := head
    obtain ⟨next, taken, later⟩ := Option.bind_eq_some_iff.mp run
    rw [SaveSystem.TakesTurns, taken] at turns
    exact ih (serial.step turns.1 taken) turns.2 later

/-- No update is lost while the processes take turns. For any number of processes and any run
in which a process loads only while no other one is between its load and its return, once all have
returned `Ok` the history holds every command and every entry that was there before. -/
theorem saves_keep_all {disk : HistoryDisk} {old : List Text}
    (loaded : loadHistory json disk = some old) (moves : List (ι × SaveMove))
    (final : SaveSystem ι)
    (run : (SaveSystem.initial disk).run json command cli moves = some final)
    (turns : (SaveSystem.initial disk).TakesTurns json command cli moves)
    (finished : ∀ process, final.phase process = .returned true) :
    ∃ list, loadHistory json final.disk = some list ∧ (∀ process, command process ∈ list) ∧
      ∀ entry ∈ old, entry ∈ list := by
  have begun : (SaveSystem.initial disk).Serial json command cli old :=
    .idle old loaded (fun _ => rfl) ⟨fun _ member => member, fun _ => SavePhase.noConfusion⟩
  cases SaveSystem.Serial.run moves begun turns run with
  | idle list shown _ covered =>
    exact ⟨list, shown, fun process => covered.2 process (finished process), covered.1⟩
  | busy owner _ _ _ within _ _ =>
    rw [finished owner] at within
    contradiction
  | failed process error =>
    rw [finished process] at error
    contradiction

/-! ## Two processes -/

section Steps

variable (system : SaveSystem ι) (process : ι)

@[simp] theorem SaveSystem.put_put (first second : SavePhase) (before after : HistoryDisk) :
    (system.put process first before).put process second after = system.put process second after := by
  rw [SaveSystem.put, SaveSystem.put, Function.update_idem, SaveSystem.put]

variable {process}

/-- A process loads. -/
theorem SaveSystem.step_load (ready : system.phase process = .started)
    (present : system.disk ≠ .noDirectory) :
    system.step json command cli process .load = some (system.put process
      (.loaded ((loadHistoryEntries json system.disk).getD [])) system.disk) := by
  rw [SaveSystem.step, ready, advance, if_neg present]
  rfl

/-- A process that has loaded opens the file. -/
theorem SaveSystem.step_create {history : List HistoryEntry} {text : Text} {opened : HistoryDisk}
    (ready : system.phase process = .loaded history)
    (saved : savedText json (command process) (cli process) history = some text)
    (created : system.disk.create = some opened) :
    system.step json command cli process .create =
      some (system.put process (.writing 0 (Utf8.encode text)) opened) := by
  rw [SaveSystem.step, ready, advance, saved, created]
  rfl

/-- A process writes all that is left. -/
theorem SaveSystem.step_write {rest : List UInt8} {count : Nat} (enough : rest.length ≤ count)
    (ready : system.phase process = .writing 0 rest) :
    system.step json command cli process (.write count) =
      some (system.put process (.writing rest.length []) (system.disk.writeAt 0 rest)) := by
  rw [SaveSystem.step, ready, advance, List.take_of_length_le enough, List.drop_of_length_le enough,
    Nat.zero_add]
  rfl

/-- A process with nothing left to write returns. -/
theorem SaveSystem.step_finish {offset : Nat} (ready : system.phase process = .writing offset []) :
    system.step json command cli process .finish =
      some (system.put process (.returned true) system.disk) := by
  rw [SaveSystem.step, ready]
  rfl

end Steps

/-- The commands of two processes. -/
def twoCommands (process : Bool) : Text := if process then "rcurl p a".toList else "rcurl p b".toList

/-- The steps of a process after it has loaded. -/
def writeMoves (process : Bool) : List (Bool × SaveMove) :=
  [(process, .create), (process, .write 200), (process, .finish)]

section TwoProcesses

variable {system : SaveSystem Bool} {process : Bool} (commands : List Text)
  (ready : system.phase process = .loaded (entriesOf commands))
  (created : system.disk.create = some (.file { bytes := [], readable := true }))
  (small : (Utf8.encode (PrettyJson.write "command".toList
    (Recency.toFront (twoCommands process) commands))).length ≤ 200)
  (rest : List (Bool × SaveMove))
include ready created small

/-- The steps after loading write the new list. -/
theorem run_writeMoves :
    system.run prettyHistory twoCommands (fun _ => {}) (writeMoves process ++ rest) =
      (system.put process (.returned true)
        (prettyDisk (Recency.toFront (twoCommands process) commands))).run prettyHistory twoCommands
          (fun _ => {}) rest := by
  have saved := savedText_pretty (twoCommands process) {} commands
  simp only [writeMoves, List.cons_append, List.nil_append, SaveSystem.run,
    SaveSystem.step_create system ready saved created, Option.bind_some,
    SaveSystem.step_write _ small (SaveSystem.put_self _ _ _ _),
    SaveSystem.step_finish _ (SaveSystem.put_self _ _ _ _), SaveSystem.put_put,
    SaveSystem.put_disk, HistoryDisk.writeAt, overwrite_empty, prettyDisk]

/-- The steps after loading are taken in turn when the later ones are. -/
theorem turns_writeMoves :
    system.TakesTurns prettyHistory twoCommands (fun _ => {}) (writeMoves process ++ rest) ↔
      (system.put process (.returned true)
        (prettyDisk (Recency.toFront (twoCommands process) commands))).TakesTurns prettyHistory
          twoCommands (fun _ => {}) rest := by
  have saved := savedText_pretty (twoCommands process) {} commands
  simp only [writeMoves, List.cons_append, List.nil_append, SaveSystem.TakesTurns,
    SaveSystem.step_create system ready saved created, Option.elim_some, reduceCtorEq,
    false_implies, true_and,
    SaveSystem.step_write _ small (SaveSystem.put_self _ _ _ _),
    SaveSystem.step_finish _ (SaveSystem.put_self _ _ _ _), SaveSystem.put_put,
    SaveSystem.put_disk, HistoryDisk.writeAt, overwrite_empty, prettyDisk]

end TwoProcesses

/-- A process that loads a list and then writes. -/
def turnMoves (process : Bool) : List (Bool × SaveMove) := (process, .load) :: writeMoves process

section OneTurn

variable {system : SaveSystem Bool} {process : Bool} (commands : List Text)
  (ready : system.phase process = .started) (present : system.disk ≠ .noDirectory)
  (read : loadHistoryEntries prettyHistory system.disk = some (entriesOf commands))
  (created : system.disk.create = some (.file { bytes := [], readable := true }))
  (small : (Utf8.encode (PrettyJson.write "command".toList
    (Recency.toFront (twoCommands process) commands))).length ≤ 200)
  (rest : List (Bool × SaveMove))
include ready present read created small

/-- A whole turn puts the command in front. -/
theorem run_turnMoves :
    system.run prettyHistory twoCommands (fun _ => {}) (turnMoves process ++ rest) =
      (system.put process (.returned true)
        (prettyDisk (Recency.toFront (twoCommands process) commands))).run prettyHistory twoCommands
          (fun _ => {}) rest := by
  have loads : system.step prettyHistory twoCommands (fun _ => {}) process .load = _ :=
    system.step_load ready present
  rw [read, Option.getD_some] at loads
  rw [turnMoves, List.cons_append, SaveSystem.run, loads, Option.bind_some,
    run_writeMoves commands (system.put_self _ _ _) created small, SaveSystem.put_put]

/-- A whole turn is taken in turn when nobody is inside. -/
theorem turns_turnMoves (outside : ∀ other, other ≠ process → (system.phase other).inside = false)
    (later : (system.put process (.returned true)
      (prettyDisk (Recency.toFront (twoCommands process) commands))).TakesTurns prettyHistory
        twoCommands (fun _ => {}) rest) :
    system.TakesTurns prettyHistory twoCommands (fun _ => {}) (turnMoves process ++ rest) := by
  have loads : system.step prettyHistory twoCommands (fun _ => {}) process .load = _ :=
    system.step_load ready present
  rw [read, Option.getD_some] at loads
  rw [turnMoves, List.cons_append, SaveSystem.TakesTurns, loads, Option.elim_some,
    turns_writeMoves commands (system.put_self _ _ _) created small, SaveSystem.put_put]
  exact ⟨fun _ => outside, later⟩

end OneTurn

/-- One process after the other keeps both commands. -/
theorem saves_keep_two :
    ∃ final : SaveSystem Bool, (SaveSystem.initial .noFile).run prettyHistory twoCommands
        (fun _ => {}) (turnMoves true ++ (turnMoves false ++ [])) = some final ∧
      ∃ list, loadHistory prettyHistory final.disk = some list ∧
        ∀ process, twoCommands process ∈ list := by
  have read := loadHistoryEntries_pretty [twoCommands true]
  have present : ∀ commands, prettyDisk commands ≠ .noDirectory :=
    fun commands => HistoryDisk.noConfusion
  have run : (SaveSystem.initial .noFile).run prettyHistory twoCommands (fun _ => {})
      (turnMoves true ++ (turnMoves false ++ [])) =
      some (((SaveSystem.initial .noFile).put true (.returned true)
        (prettyDisk [twoCommands true])).put false (.returned true)
          (prettyDisk [twoCommands false, twoCommands true])) := by
    rw [run_turnMoves [] rfl HistoryDisk.noConfusion rfl rfl (by decide),
      run_turnMoves [twoCommands true] rfl (present _) read rfl (by decide)]
    rfl
  have turns : (SaveSystem.initial .noFile).TakesTurns prettyHistory twoCommands (fun _ => {})
      (turnMoves true ++ (turnMoves false ++ [])) := by
    apply turns_turnMoves [] rfl HistoryDisk.noConfusion rfl rfl (by decide)
    · exact fun _ _ => rfl
    · apply turns_turnMoves [twoCommands true] rfl (present _) read rfl (by decide)
      · intro other _
        cases other <;> rfl
      · trivial
  have empty : loadHistory prettyHistory .noFile = some [] := rfl
  obtain ⟨list, shown, all, _⟩ := saves_keep_all empty _ _ run turns (by
    intro process
    cases process <;> rfl)
  exact ⟨_, run, list, shown, all⟩

/-- Two processes that both load before either writes: the one that writes last wins. -/
theorem lost_update :
    ¬∀ (moves : List (Bool × SaveMove)) (final : SaveSystem Bool),
      (SaveSystem.initial .noFile).run prettyHistory twoCommands (fun _ => {}) moves = some final →
        (∀ process, final.phase process = .returned true) →
          ∃ list, loadHistory prettyHistory final.disk = some list ∧
            ∀ process, twoCommands process ∈ list := by
  intro kept
  have run : (SaveSystem.initial .noFile).run prettyHistory twoCommands (fun _ => {})
      ((true, .load) :: (false, .load) :: (writeMoves true ++ (writeMoves false ++ []))) =
      some (((SaveSystem.initial .noFile).put true (.returned true) .noFile).put false
        (.returned true) (prettyDisk [twoCommands false])) := by
    rw [SaveSystem.run, SaveSystem.step_load _ rfl HistoryDisk.noConfusion, Option.bind_some,
      SaveSystem.run, SaveSystem.step_load _ rfl HistoryDisk.noConfusion, Option.bind_some,
      run_writeMoves [] (by rfl) rfl (by decide), run_writeMoves [] (by rfl) rfl (by decide),
      SaveSystem.run, Option.some.injEq]
    apply SaveSystem.ext
    · funext process
      cases process <;> rfl
    · rfl
  obtain ⟨list, shown, all⟩ := kept _ _ run (by
    intro process
    cases process <;> rfl)
  rw [SaveSystem.put_disk, loadHistory_pretty, Option.some.injEq] at shown
  have missing := all true
  rw [← shown] at missing
  exact absurd missing (by decide)

end Rcurl
