import Rcurl.App.Run
import Rcurl.History.Reorder

/-!
# Processes one after another

`app::run` from the arguments to the handler: `main_with_error`, `do_request` and `interactive_mode`. The
line of a request or a quick command is submitted to the history, and then a handler is chosen; without
either a line is picked from the history, read, and submitted and executed in its place. What holds over
any sequence of processes is `history_records`: the history is what was submitted, the last first, also
where no handler takes the command line, and nothing else changes it.

The command line parser is a parameter, and what the handlers do is not a part of this. What a process
leaves on the disk is what `Rcurl.doRequest` leaves there, `doRequest_disk`.
-/

namespace Rcurl.App

open ShellWords (Text)

/-- How one process is launched, and what it meets. -/
structure Launch where
  /-- The arguments behind the name of the program. -/
  args : List Text
  /-- The line that is picked, when the history is offered. -/
  pick : (options : List Text) → Option (Fin options.length)
  /-- The errors of the file system while the request is saved. -/
  faults : SaveFaults := {}

/-- What comes of a process before its handler. -/
inductive Outcome where
  /-- The arguments are refused. -/
  | usage
  /-- There is no history to pick from, which is printed. -/
  | noHistory (printed : List Text)
  /-- Nothing was picked. -/
  | cancelled
  /-- The line that was picked does not read. -/
  | illegible (line : Text)
  /-- A command line is submitted to the history, saved or not, and executed; no handler takes it when
  it is `failed`. -/
  | executed (cli : Cli) (handler : Handler) (saved : Bool)
  deriving DecidableEq

/-- What is printed when there is no history. -/
def noHistoryLines : List Text :=
  ["No request history found.".toList, "Run a command first to create history.".toList]

section Process

variable (json : HistoryJson) (parse : List Text → Option Cli)
  (parseScheme : Text → Option (Option Text))

/-- A line of the history as a command line: its words, parsed. -/
def readLine (line : Text) : Option Cli := (ShellWords.split line).bind parse

/-- A command line is saved, and executed whether it could be saved or not. -/
def saveAndExecute (faults : SaveFaults) (cli : Cli) (disk : HistoryDisk) : Outcome × HistoryDisk :=
  let saved := saveRequest json faults (commandFromCli cli) cli disk
  (.executed cli (executeRequest parseScheme cli) saved.1, saved.2)

/-- `interactive_mode`. -/
def interactiveMode (launch : Launch) (disk : HistoryDisk) : Outcome × HistoryDisk :=
  let history := (loadHistory json disk).getD []
  if history.isEmpty then (.noHistory noHistoryLines, disk)
  else
    match launch.pick history with
    | none => (.cancelled, disk)
    | some index =>
      match readLine parse (history.get index) with
      | none => (.illegible (history.get index), disk)
      | some cli => saveAndExecute json parseScheme launch.faults cli disk

/-- `do_request`. -/
def doRequest (launch : Launch) (cli : Cli) (disk : HistoryDisk) : Outcome × HistoryDisk :=
  if cli.url.isNone && cli.quickCmd.isNone then interactiveMode json parse parseScheme launch disk
  else saveAndExecute json parseScheme launch.faults cli disk

/-- `main_with_error`. -/
def mainWithError (launch : Launch) (disk : HistoryDisk) : Outcome × HistoryDisk :=
  match parse ("rcurl".toList :: launch.args) with
  | none => (.usage, disk)
  | some cli => doRequest json parse parseScheme launch cli disk

/-- Processes one after another. -/
def runAll : List Launch → HistoryDisk → List Outcome × HistoryDisk
  | [], disk => ([], disk)
  | launch :: launches, disk =>
    let first := mainWithError json parse parseScheme launch disk
    let rest := runAll launches first.2
    (first.1 :: rest.1, rest.2)

end Process

/-- The lines that were submitted to the history, one after another. -/
def submittedLines (outcomes : List Outcome) : List Text :=
  outcomes.filterMap fun outcome =>
    match outcome with
    | .executed cli _ _ => some (commandFromCli cli)
    | .usage | .noHistory _ | .cancelled | .illegible _ => none

/-- The lines that a handler was called for, one after another. -/
def handledLines (outcomes : List Outcome) : List Text :=
  outcomes.filterMap fun outcome =>
    match outcome with
    | .executed cli handler _ => if handler = .failed then none else some (commandFromCli cli)
    | .usage | .noHistory _ | .cancelled | .illegible _ => none

/-- Everything that was submitted was saved. -/
def AllSaved (outcomes : List Outcome) : Prop :=
  ∀ cli handler saved, Outcome.executed cli handler saved ∈ outcomes → saved = true

/-- No handler takes the command line: it is no quick command, and its URL has no scheme of these. -/
def Unhandled (parseScheme : Text → Option (Option Text)) (cli : Cli) : Prop :=
  cli.quickCmd = none ∧ ∀ scheme, parseScheme (cli.url.getD []) = some (some scheme) →
    scheme ∉ ["http", "https", "ftp", "ftps", "sftp"].map String.toList

/-- The arguments name the command line. -/
def Names (parse : List Text → Option Cli) (launch : Launch) (cli : Cli) : Prop :=
  parse ("rcurl".toList :: launch.args) = some cli ∧
    (cli.url.isSome = true ∨ cli.quickCmd.isSome = true)

/-- The arguments are options at most. -/
def Bare (parse : List Text → Option Cli) (launch : Launch) : Prop :=
  ∃ bare, parse ("rcurl".toList :: launch.args) = some bare ∧ bare.url = none ∧ bare.quickCmd = none

/-- The arguments are options at most, and the command line is read from a line that was picked. -/
def Picks (parse : List Text → Option Cli) (launch : Launch) (history : List Text) (cli : Cli) : Prop :=
  Bare parse launch ∧ ∃ line ∈ history, readLine parse line = some cli

/-- The history over a sequence of processes that came to these outcomes and left this disk. -/
structure RecordsHistory (json : HistoryJson) (parse : List Text → Option Cli)
    (parseScheme : Text → Option (Option Text)) (launches : List Launch) (start : HistoryDisk)
    (outcomes : List Outcome) (final : HistoryDisk) : Prop where
  /-- It shows what was submitted, each line once and the last first, and behind it what it showed
  before and was not submitted again. -/
  shown : ∀ old, loadHistory json start = some old → AllSaved outcomes →
    ∃ recent, Recency.LatestFirst (submittedLines outcomes) recent ∧
      loadHistory json final = some (recent ++ Recency.unused (submittedLines outcomes) old)
  /-- A handler is only called for what was submitted. -/
  handled : (handledLines outcomes).Sublist (submittedLines outcomes)
  /-- What is submitted without a handler has no scheme that is known. -/
  unhandled : ∀ cli handler saved, Outcome.executed cli handler saved ∈ outcomes →
    (handler = .failed ↔ Unhandled parseScheme cli)
  /-- Nothing changes unless something is submitted. -/
  kept : submittedLines outcomes = [] → final = start
  /-- Where nothing fails, everything that is submitted is saved. -/
  faultless : (∀ entries, (json.toStringPretty entries).isSome = true) →
    (∀ launch ∈ launches, launch.faults = {}) → AllSaved outcomes
  /-- A command line that the arguments name is submitted. -/
  named : ∀ first launch rest, launches = first ++ launch :: rest → ∀ cli, Names parse launch cli →
    ∃ handler saved, outcomes[first.length]? = some (.executed cli handler saved)
  /-- So is one that is picked, where the arguments name none. -/
  picked : ∀ first launch rest, launches = first ++ launch :: rest → ∀ history index cli,
    Bare parse launch →
      loadHistory json (runAll json parse parseScheme first start).2 = some history →
        launch.pick history = some index → readLine parse (history.get index) = some cli →
          ∃ handler saved, outcomes[first.length]? = some (.executed cli handler saved)
  /-- What is submitted was named by the arguments, or it is read from a line that was submitted before
  or was there from the start, whatever was saved. -/
  origin : ∀ first launch rest, launches = first ++ launch :: rest → ∀ cli handler saved,
    outcomes[first.length]? = some (.executed cli handler saved) →
      Names parse launch cli ∨ Picks parse launch
        (submittedLines (outcomes.take first.length) ++ (loadHistory json start).getD []) cli

section Steps

variable {json : HistoryJson} {parse : List Text → Option Cli}
  {parseScheme : Text → Option (Option Text)}

/-- A command line without a handler. -/
theorem executeRequest_failed_iff (cli : Cli) :
    executeRequest parseScheme cli = .failed ↔ Unhandled parseScheme cli := by
  rw [executeRequest, Unhandled]
  cases quick : cli.quickCmd with
  | some quickCmd =>
    have taken : quickCmd.handler ≠ .failed := by
      cases quickCmd with
      | port number kill => cases number <;> cases kill <;> exact Handler.noConfusion
      | _ => exact Handler.noConfusion
    exact iff_of_false taken fun absent => absurd absent.1 (Option.some_ne_none quickCmd)
  | none =>
    rw [eq_self, true_and]
    cases parseScheme (cli.url.getD []) with
    | none => exact iff_of_true rfl fun scheme known => by simp at known
    | some found =>
      cases found with
      | none => exact iff_of_true rfl fun scheme known => by simp at known
      | some scheme =>
        simp only [Option.some.injEq, forall_eq', List.map_cons, List.map_nil, List.mem_cons,
          List.not_mem_nil, or_false]
        split_ifs with web ftp
        · exact iff_of_false not_false fun other => other (by tauto)
        · exact iff_of_false not_false fun other => other (by tauto)
        · exact iff_of_true rfl (by tauto)

/-- What is handed on by `interactive_mode` is read from a line of the history. -/
theorem interactiveMode_cases (launch : Launch) (disk : HistoryDisk) :
    (∃ outcome, submittedLines [outcome] = [] ∧
        interactiveMode json parse parseScheme launch disk = (outcome, disk)) ∨
      ∃ line ∈ (loadHistory json disk).getD [], ∃ cli, readLine parse line = some cli ∧
        interactiveMode json parse parseScheme launch disk =
          saveAndExecute json parseScheme launch.faults cli disk := by
  unfold interactiveMode
  extract_lets history
  split_ifs with empty
  · exact Or.inl ⟨.noHistory noHistoryLines, rfl, rfl⟩
  · cases launch.pick history with
    | none => exact Or.inl ⟨.cancelled, rfl, rfl⟩
    | some index =>
      simp only
      cases read : readLine parse (history.get index) with
      | none => exact Or.inl ⟨.illegible _, rfl, rfl⟩
      | some cli => exact Or.inr ⟨history.get index, List.get_mem history index, cli, read, rfl⟩

/-- What one process can do: nothing to the history, or save and execute a command line that was
named or picked. -/
theorem mainWithError_cases (launch : Launch) (disk : HistoryDisk) :
    (∃ outcome, submittedLines [outcome] = [] ∧
        mainWithError json parse parseScheme launch disk = (outcome, disk)) ∨
      ∃ cli, (Names parse launch cli ∨ Picks parse launch ((loadHistory json disk).getD []) cli) ∧
        mainWithError json parse parseScheme launch disk =
          saveAndExecute json parseScheme launch.faults cli disk := by
  rw [mainWithError]
  cases parsed : parse ("rcurl".toList :: launch.args) with
  | none => exact Or.inl ⟨.usage, rfl, rfl⟩
  | some cli =>
    simp only [doRequest]
    split_ifs with bare
    · rw [Bool.and_eq_true, Option.isNone_iff_eq_none, Option.isNone_iff_eq_none] at bare
      rcases interactiveMode_cases launch disk with idle | ⟨line, member, read, replayed, same⟩
      · exact Or.inl idle
      · exact Or.inr ⟨read, Or.inr ⟨⟨cli, parsed, bare⟩, line, member, replayed⟩, same⟩
    · have named : cli.url.isSome = true ∨ cli.quickCmd.isSome = true := by
        rw [Bool.and_eq_true, not_and_or] at bare
        simpa only [Option.isNone_iff_eq_none, Option.isSome_iff_ne_none] using bare
      exact Or.inr ⟨cli, Or.inl ⟨parsed, named⟩, rfl⟩

/-- What is known of a process that executes a command line. -/
theorem mainWithError_executed {launch : Launch} {disk : HistoryDisk} {cli : Cli} {handler : Handler}
    {saved : Bool}
    (executed : (mainWithError json parse parseScheme launch disk).1 = .executed cli handler saved) :
    (Names parse launch cli ∨ Picks parse launch ((loadHistory json disk).getD []) cli) ∧
      handler = executeRequest parseScheme cli ∧
        saved = (saveRequest json launch.faults (commandFromCli cli) cli disk).1 := by
  rcases mainWithError_cases launch disk with ⟨outcome, idle, same⟩ | ⟨read, source, same⟩
  · rw [same] at executed
    obtain rfl : outcome = .executed cli handler saved := executed
    exact absurd idle (List.cons_ne_nil _ _)
  · rw [same] at executed
    obtain ⟨rfl, rfl, rfl⟩ := Outcome.executed.inj executed
    exact ⟨source, rfl, rfl⟩

/-- What is left on the disk is what the save of `do_request` alone leaves there. -/
theorem doRequest_disk (launch : Launch) (cli : Cli) (disk : HistoryDisk) :
    (doRequest json Cli.tryParseFrom parseScheme launch cli disk).2 =
      ((Rcurl.doRequest json
        { cli, faults := launch.faults,
          selected := (launch.pick ((loadHistory json disk).getD [])).map
            ((loadHistory json disk).getD []).get } disk).map (·.2)).getD disk := by
  rw [doRequest, Rcurl.doRequest]
  by_cases bare : cli.url = none ∧ cli.quickCmd = none
  · have empty : (cli.url.isNone && cli.quickCmd.isNone) = true := by
      rw [bare.1, bare.2]
      rfl
    rw [if_pos empty, if_pos bare, interactiveMode]
    cases picked : launch.pick ((loadHistory json disk).getD []) with
    | none =>
      simp only
      split_ifs <;> rfl
    | some index =>
      have member := List.get_mem ((loadHistory json disk).getD []) index
      have offered : ((loadHistory json disk).getD []).isEmpty = false :=
        List.isEmpty_eq_false_iff.mpr (List.ne_nil_of_mem member)
      simp only [Option.map_some, offered, Bool.false_eq_true, if_false, Rcurl.interactiveMode,
        if_pos member]
      rw [readLine, ← replay]
      cases replay (((loadHistory json disk).getD []).get index) with
      | none => rfl
      | some cli => rfl
  · have named : ¬(cli.url.isNone && cli.quickCmd.isNone) = true := by
      rw [Bool.and_eq_true, Option.isNone_iff_eq_none, Option.isNone_iff_eq_none]
      exact bare
    rw [if_neg named, if_neg bare]
    rfl

/-- The lines behind an outcome. -/
theorem submittedLines_cons (outcome : Outcome) (outcomes : List Outcome) :
    submittedLines (outcome :: outcomes) = submittedLines [outcome] ++ submittedLines outcomes := by
  rw [submittedLines, ← List.singleton_append, List.filterMap_append]
  rfl

/-- Processes use their lines in order. -/
theorem runAll_touch (launches : List Launch) {start : HistoryDisk} {old : List Text}
    (loaded : loadHistory json start = some old)
    (saved : AllSaved (runAll json parse parseScheme launches start).1) :
    loadHistory json (runAll json parse parseScheme launches start).2 =
      some (Recency.touch (submittedLines (runAll json parse parseScheme launches start).1) old) := by
  induction launches generalizing start old with
  | nil => exact loaded
  | cons launch launches ih =>
    have later : AllSaved (runAll json parse parseScheme launches
        (mainWithError json parse parseScheme launch start).2).1 :=
      fun cli handler done member => saved cli handler done (List.mem_cons_of_mem _ member)
    rw [runAll, submittedLines_cons]
    rcases mainWithError_cases launch start with ⟨outcome, idle, same⟩ | ⟨cli, _, same⟩
    · rw [same] at later ⊢
      rw [idle]
      exact ih loaded later
    · have done : (saveRequest json launch.faults (commandFromCli cli) cli start).1 = true := by
        apply saved cli (executeRequest parseScheme cli)
        rw [runAll, same]
        exact List.mem_cons_self
      have next := @saveRequest_ok json launch.faults (commandFromCli cli) cli start _ old loaded
        (Prod.ext done rfl)
      rw [same] at later ⊢
      exact ih next later

/-- Processes that hand nothing on leave the disk as it is. -/
theorem runAll_kept (launches : List Launch) {start : HistoryDisk}
    (idle : submittedLines (runAll json parse parseScheme launches start).1 = []) :
    (runAll json parse parseScheme launches start).2 = start := by
  induction launches generalizing start with
  | nil => rfl
  | cons launch launches ih =>
    rw [runAll, submittedLines_cons, List.append_eq_nil_iff] at idle
    rw [runAll]
    rcases mainWithError_cases launch start with ⟨outcome, _, same⟩ | ⟨cli, _, same⟩
    · rw [same] at idle ⊢
      exact ih idle.2
    · rw [same] at idle
      exact absurd idle.1 (List.cons_ne_nil _ _)

/-- Every line that is shown was submitted or was there from the start. -/
theorem runAll_shows (refuses : json.RefusesPrefixes) (launches : List Launch) {start : HistoryDisk} :
    ∀ line ∈ (loadHistory json (runAll json parse parseScheme launches start).2).getD [],
      line ∈ submittedLines (runAll json parse parseScheme launches start).1 ++
        (loadHistory json start).getD [] := by
  induction launches generalizing start with
  | nil => exact fun line member => member
  | cons launch launches ih =>
    intro line member
    have later := ih line member
    rw [runAll, submittedLines_cons, List.append_assoc, List.mem_append]
    rw [List.mem_append] at later
    rcases mainWithError_cases launch start with ⟨outcome, _, same⟩ | ⟨cli, _, same⟩
    · rw [same] at later ⊢
      exact .inr (List.mem_append.mpr later)
    · rw [same] at later ⊢
      rcases later with submitted | shown
      · exact .inr (List.mem_append_left _ submitted)
      · rcases saveRequest_shows refuses launch.faults (commandFromCli cli) cli start line shown with
          new | earlier
        · exact .inl (List.mem_singleton.mpr new)
        · exact .inr (List.mem_append_right _ earlier)

/-- Every command line that is executed is executed as `execute_request` does. -/
theorem runAll_handler (launches : List Launch) {start : HistoryDisk} {cli : Cli} {handler : Handler}
    {saved : Bool}
    (member : .executed cli handler saved ∈ (runAll json parse parseScheme launches start).1) :
    handler = executeRequest parseScheme cli := by
  induction launches generalizing start with
  | nil => exact absurd member List.not_mem_nil
  | cons launch launches ih =>
    rw [runAll] at member
    rcases List.mem_cons.mp member with here | later
    · exact (mainWithError_executed here.symm).2.1
    · exact ih later

/-- A handler is only called for a line that is submitted. -/
theorem handledLines_sublist (outcomes : List Outcome) :
    (handledLines outcomes).Sublist (submittedLines outcomes) := by
  have same : handledLines outcomes = (outcomes.filter fun outcome =>
      match outcome with
      | .executed _ handler _ => handler ≠ .failed
      | .usage | .noHistory _ | .cancelled | .illegible _ => false).filterMap fun outcome =>
        match outcome with
        | .executed cli _ _ => some (commandFromCli cli)
        | .usage | .noHistory _ | .cancelled | .illegible _ => none := by
    rw [List.filterMap_filter]
    apply List.filterMap_congr
    intro outcome _
    cases outcome with
    | executed cli handler saved => by_cases failed : handler = .failed <;> simp [failed]
    | usage | noHistory | cancelled | illegible => rfl
  rw [same]
  exact List.filter_sublist.filterMap _

/-- The outcome of a process is what it comes to on the disk that the ones before it left. -/
theorem runAll_getElem? (first rest : List Launch) (launch : Launch) (start : HistoryDisk) :
    (runAll json parse parseScheme (first ++ launch :: rest) start).1[first.length]? =
      some (mainWithError json parse parseScheme launch
        (runAll json parse parseScheme first start).2).1 := by
  induction first generalizing start with
  | nil => rfl
  | cons earlier first ih => exact ih _

/-- The outcomes before it are those of the ones before it. -/
theorem runAll_take (first rest : List Launch) (start : HistoryDisk) :
    (runAll json parse parseScheme (first ++ rest) start).1.take first.length =
      (runAll json parse parseScheme first start).1 := by
  induction first generalizing start with
  | nil => rfl
  | cons earlier first ih => exact congrArg _ (ih _)

/-- A save during which nothing fails is made. -/
theorem saveRequest_faultless (writes : ∀ entries, (json.toStringPretty entries).isSome = true)
    (command : Text) (cli : Cli) (disk : HistoryDisk) :
    (saveRequest json {} command cli disk).1 = true := by
  obtain ⟨text, written⟩ := Option.isSome_iff_exists.mp (writes (saveHistory (recordEntry command cli
    ((loadHistoryEntries json disk.createDirAll).getD []))))
  have spelled : savedText json command cli ((loadHistoryEntries json disk.createDirAll).getD []) =
      some text := written
  have kept : ¬ (disk = .noDirectory ∧ ({} : SaveFaults).createDirAll = true) :=
    fun failed => Bool.false_ne_true failed.2
  rw [saveRequest, if_neg kept, saveInto, spelled]
  cases disk <;> rfl

/-- Processes during which nothing fails save what they submit. -/
theorem runAll_faultless (writes : ∀ entries, (json.toStringPretty entries).isSome = true)
    (launches : List Launch) {start : HistoryDisk}
    (faultless : ∀ launch ∈ launches, launch.faults = {}) :
    AllSaved (runAll json parse parseScheme launches start).1 := by
  induction launches generalizing start with
  | nil => exact fun cli handler saved member => absurd member List.not_mem_nil
  | cons launch launches ih =>
    intro cli handler saved member
    rw [runAll] at member
    rcases List.mem_cons.mp member with here | later
    · have done := (mainWithError_executed here.symm).2.2
      rw [faultless launch List.mem_cons_self] at done
      exact done.trans (saveRequest_faultless writes (commandFromCli cli) cli start)
    · exact ih (fun other among => faultless other (List.mem_cons_of_mem launch among)) cli handler
        saved later

/-- A command line that the arguments name is saved and executed. -/
theorem mainWithError_named {launch : Launch} {cli : Cli} (names : Names parse launch cli)
    (disk : HistoryDisk) : mainWithError json parse parseScheme launch disk =
      saveAndExecute json parseScheme launch.faults cli disk := by
  have given : ¬ (cli.url.isNone && cli.quickCmd.isNone) = true := by
    rw [Bool.and_eq_true, Option.isNone_iff_eq_none, Option.isNone_iff_eq_none]
    rintro ⟨none_url, none_quick⟩
    have given := names.2
    rw [none_url, none_quick] at given
    exact given.elim Bool.false_ne_true Bool.false_ne_true
  rw [mainWithError, names.1]
  exact if_neg given

/-- So is a line that is picked, when it can be read. -/
theorem mainWithError_picked {launch : Launch} {disk : HistoryDisk} {history : List Text}
    {index : Fin history.length} {cli : Cli} (bare : Bare parse launch)
    (loaded : loadHistory json disk = some history) (pick : launch.pick history = some index)
    (read : readLine parse (history.get index) = some cli) :
    mainWithError json parse parseScheme launch disk =
      saveAndExecute json parseScheme launch.faults cli disk := by
  obtain ⟨options, parsed, no_url, no_quick⟩ := bare
  obtain rfl : (loadHistory json disk).getD [] = history := by rw [loaded, Option.getD_some]
  have offered : ¬ ((loadHistory json disk).getD []).isEmpty = true := by
    rw [List.isEmpty_iff]
    exact List.ne_nil_of_mem (List.get_mem _ index)
  have alone : (options.url.isNone && options.quickCmd.isNone) = true := by
    rw [no_url, no_quick]
    rfl
  rw [mainWithError, parsed]
  simp only [doRequest, if_pos alone, interactiveMode, if_neg offered, pick, read]

end Steps

/-- The history is what was submitted, over any sequence of processes, whatever is typed, picked and
refused in between. -/
theorem history_records {json : HistoryJson} (refuses : json.RefusesPrefixes)
    (parse : List Text → Option Cli) (parseScheme : Text → Option (Option Text))
    (launches : List Launch) (start : HistoryDisk) :
    RecordsHistory json parse parseScheme launches start
      (runAll json parse parseScheme launches start).1
      (runAll json parse parseScheme launches start).2 := by
  constructor
  · intro old loaded saved
    refine ⟨_, Recency.touch_latestFirst _, ?_⟩
    rw [← Recency.touch_eq]
    exact runAll_touch launches loaded saved
  · exact handledLines_sublist _
  · intro cli handler saved member
    rw [runAll_handler launches member]
    exact executeRequest_failed_iff cli
  · exact runAll_kept launches
  · exact fun writes faultless => runAll_faultless writes launches faultless
  · rintro first launch rest rfl cli names
    rw [runAll_getElem?, mainWithError_named names]
    exact ⟨_, _, rfl⟩
  · rintro first launch rest rfl history index cli bare loaded pick read
    rw [runAll_getElem?, mainWithError_picked bare loaded pick read]
    exact ⟨_, _, rfl⟩
  · rintro first launch rest rfl cli handler done executed
    rw [runAll_getElem?] at executed
    rw [runAll_take]
    have source := (mainWithError_executed (Option.some.inj executed)).1
    refine source.imp_right fun ⟨bare, line, member, replayed⟩ => ⟨bare, line, ?_, replayed⟩
    exact runAll_shows refuses first line member

/-- A process with a URL without a scheme. -/
def schemelessLaunch : Launch := { args := ["foo".toList], pick := fun _ => none }

/-- Its line is in the history, and no handler is called for it. -/
theorem history_records_schemeless :
    (handledLines (runAll prettyHistory Cli.tryParseFrom (fun _ => some none) [schemelessLaunch]
        .noDirectory).1 = [] ∧
      (runAll prettyHistory Cli.tryParseFrom (fun _ => some none) [schemelessLaunch]
        .noDirectory).2 = prettyDisk ["rcurl foo".toList]) ∧
      RecordsHistory prettyHistory Cli.tryParseFrom (fun _ => some none) [schemelessLaunch]
        .noDirectory
        (runAll prettyHistory Cli.tryParseFrom (fun _ => some none) [schemelessLaunch] .noDirectory).1
        (runAll prettyHistory Cli.tryParseFrom (fun _ => some none) [schemelessLaunch] .noDirectory).2 :=
  ⟨⟨by decide, by decide⟩, history_records prettyHistory_refuses _ _ _ _⟩

end Rcurl.App
