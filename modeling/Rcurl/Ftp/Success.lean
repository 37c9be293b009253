import Rcurl.Ftp.Handler
import Rcurl.Http.Proxy

/-!
# What the success of an FTP session means

A session that comes to `Ok` has demanded nearly all its steps. The exceptions are the refused type,
which panics, the two replies that are thrown away, and the ranges, whose last bytes are left out:
`ftp_honest_iff` says exactly when success means that the transfer happened.
-/

namespace Rcurl

open ShellWords (Text)
open Session (Program)

/-- The bytes of an inclusive range. -/
def inclusiveRange (item : Bytes) (range : Nat × Nat) : Bytes :=
  (item.take (range.2 + 1)).drop range.1

/-- The listing, or the ranges of it that `-r` names. -/
def rangedListing (ranges : RangeHeader) (cli : Cli) (item : Bytes) : Option Bytes :=
  match cli.rangeOption with
  | none => some item
  | some range =>
    (ranges.validate (rangeHeaderText range) item.length).map fun list =>
      (list.map (inclusiveRange item)).flatten

/-- The bytes that are cut out for a range: all but the last. -/
def cutRange (item : Bytes) (range : Nat × Nat) : Bytes := (item.take range.2).drop range.1

/-- How a session ends, and the steps it issued. -/
abbrev FtpRun := List FtpStep × Except FtpFault (Option Bytes)

/-- Success means that the transfer happened: a session never panics, and when it comes to `Ok`, every
step it issued succeeded, the last step of an upload stored the whole file, and with `-o` the last
step of a listing wrote the listing or its ranges. -/
structure FtpHonest (ranges : RangeHeader) (world : FtpWorld) (cli : Cli) (run : FtpRun) :
    Prop where
  /-- It does not panic. -/
  calm : run.2 ≠ .error .panicked
  /-- Every step succeeded. -/
  succeeded : ∀ printed, run.2 = .ok printed → ∀ step ∈ run.1, (world step).isSome = true
  /-- The whole file was stored. -/
  stored : ∀ printed, run.2 = .ok printed → ∀ path, cli.uploadfileOption = some path →
    ∃ content name, world (.openFile path) = some content ∧ RustText.fileName path = some name ∧
      run.1.getLast? = some (.putFile name content)
  /-- The listing was written. -/
  written : ∀ printed, run.2 = .ok printed → cli.uploadfileOption = none →
    cli.quoteOption = none → ∀ path, cli.filePathOption = some path →
      ∃ lines bytes, world .list = some lines ∧
        rangedListing ranges cli (listing lines) = some bytes ∧
          run.1.getLast? = some (.writeAll path bytes)

/-- The login is accepted. -/
def LogsIn {Url : Type} (urls : FtpUrls Url) (world : FtpWorld) (cli : Cli) (text : Text)
    (uri : Uri) : Prop :=
  match cli.authorityOption with
  | some authority => ∃ parts, RustText.splitTwo ':' authority = some parts ∧
      (world (.login parts.1 parts.2)).isSome = true
  | none => uri.authority.isSome = true → ∃ url password, urls.parse text = some url ∧
      urls.password url = some password ∧
        (world (.login (urls.username url) password)).isSome = true

/-- The session gets to its directory. -/
def SessionOpens {Url : Type} (urls : FtpUrls Url) (world : FtpWorld) (cli : Cli) (scheme : Text) :
    Prop :=
  ∃ text uri host, cli.url = some text ∧ urls.toUri text = some uri ∧ uri.host = some host ∧
    (world (.connect host (uri.port.getD 21))).isSome = true ∧
      (scheme = "ftps".toList → (world (.intoSecure host)).isSome = true) ∧
        LogsIn urls world cli text uri ∧ (world (.cwd uri.path)).isSome = true

/-- Where the transfer is honest: the file is accepted, and the listing is written, without `-r` or with
nothing to cut. -/
structure TransferHolds (ranges : RangeHeader) (world : FtpWorld) (cli : Cli) : Prop where
  /-- A file that can be read is accepted. -/
  accepted : ∀ path content name, cli.uploadfileOption = some path →
    world (.openFile path) = some content → (world (.metadata path)).isSome = true →
      RustText.fileName path = some name → (world (.putFile name content)).isSome = true
  /-- A listing that comes can be written; its ranges are refused, or it is empty. -/
  writable : ∀ lines path, cli.uploadfileOption = none → cli.quoteOption = none →
    world .list = some lines → cli.filePathOption = some path →
      (world (.openOutput path)).isSome = true →
        match cli.rangeOption with
        | none => (world (.writeAll path (listing lines))).isSome = true
        | some range => ∀ list,
            ranges.validate (rangeHeaderText range) (listing lines).length = some list →
              listing lines = [] ∧ (world (.writeAll path [])).isSome = true

section Opening

variable {Url : Type} {urls : FtpUrls Url} {world : FtpWorld} {cli : Cli} {scheme : Text}

/-- A step without a payload succeeds when it replies. -/
theorem eq_some_unit {reply : Option Unit} {value : Unit} :
    reply = some value ↔ reply.isSome = true := by
  cases reply with
  | none => simp
  | some done => simp

/-- A login comes to an end exactly when it is accepted. -/
theorem ftpLogin_comes {text : Text} {uri : Uri} {value : Unit} :
    Session.Comes world (ftpLogin urls cli text uri) value ↔ LogsIn urls world cli text uri := by
  rw [ftpLogin, LogsIn]
  cases cli.authorityOption with
  | some authority => simp [loginWith, attemptValue, attemptStep, eq_some_unit]
  | none =>
    cases uri.authority with
    | none => simp
    | some authority => simp [loginFromUrl, attemptValue, attemptStep, eq_some_unit]

/-- An upgrade comes to an end exactly when it is accepted or not asked for. -/
theorem ftpUpgrade_comes {host : Text} {value : Unit} :
    Session.Comes world (ftpUpgrade scheme host) value ↔
      (scheme = "ftps".toList → (world (.intoSecure host)).isSome = true) := by
  rw [ftpUpgrade]
  by_cases secure : scheme = "ftps".toList
  · rw [if_pos secure]
    simp only [attemptStep, Session.comes_demand, eq_some_unit, secure, true_imp_iff]
  · rw [if_neg secure]
    exact iff_of_true rfl fun same => (secure same).elim

/-- A session gets to its directory exactly when every step on the way is accepted. -/
theorem openSession_comes :
    Session.Comes world (openSession urls cli scheme) () ↔ SessionOpens urls world cli scheme := by
  rw [openSession, SessionOpens]
  simp only [Session.comes_bind, attemptValue, attemptStep, Session.comes_require,
    Session.comes_demand, eq_some_unit, ftpUpgrade_comes, ftpLogin_comes, exists_and_left,
    exists_const]

/-- No fault on the way to the directory is a panic. -/
theorem openSession_demands :
    Program.Demands (· ≠ .panicked) (openSession urls cli scheme) := by
  have step : ∀ step error, Program.Demands (· ≠ .panicked) (attemptStep step error) :=
    fun _ _ => Session.demands_demand (by simp)
  have value : ∀ {α : Type} (value : Option α) error,
      Program.Demands (· ≠ .panicked) (attemptValue value error) :=
    fun _ _ => Session.demands_require (by simp)
  have login : ∀ text uri, Program.Demands (· ≠ .panicked) (ftpLogin urls cli text uri) := by
    intro text uri
    rw [ftpLogin]
    split
    · exact Session.demands_bind (value _ _) fun parts => step _ _
    · split_ifs
      · exact Session.demands_bind (value _ _) fun url =>
          Session.demands_bind (value _ _) fun password => step _ _
      · trivial
  have upgrade : ∀ host, Program.Demands (· ≠ .panicked) (ftpUpgrade scheme host) := by
    intro host
    rw [ftpUpgrade]
    split_ifs
    · exact step _ _
    · trivial
  apply Session.demands_bind (value _ _)
  intro text
  apply Session.demands_bind (value _ _)
  intro uri
  apply Session.demands_bind (value _ _)
  intro host
  apply Session.demands_bind (step _ _)
  intro _
  apply Session.demands_bind (upgrade host)
  intro _
  apply Session.demands_bind (login text uri)
  intro _
  exact step _ _

end Opening

section Transfer

variable {ranges : RangeHeader} {world : FtpWorld} {cli : Cli} {before trace : List FtpStep}

/-- An error is honest. -/
theorem FtpHonest.of_error (error : FtpError) :
    FtpHonest ranges world cli (trace, .error (.error error)) where
  calm := by simp
  succeeded := by simp
  stored := by simp
  written := by simp

/-- A session that succeeds with its last reply thrown away is honest exactly when that step
succeeded and did what the session is for. -/
theorem honest_last_iff (ranges : RangeHeader) (cli : Cli) (step : FtpStep)
    (fine : ∀ step ∈ before, (world step).isSome = true) :
    FtpHonest ranges world cli (before ++ [step], .ok none) ↔
      (world step).isSome = true ∧
        (∀ path, cli.uploadfileOption = some path → ∃ content name,
          world (.openFile path) = some content ∧ RustText.fileName path = some name ∧
            step = .putFile name content) ∧
        (cli.uploadfileOption = none → cli.quoteOption = none → ∀ path,
          cli.filePathOption = some path → ∃ lines bytes, world .list = some lines ∧
            rangedListing ranges cli (listing lines) = some bytes ∧
              step = .writeAll path bytes) := by
  have last : (before ++ [step]).getLast? = some step := List.getLast?_concat
  constructor
  · intro honest
    refine ⟨honest.succeeded none rfl step (by simp), ?_, ?_⟩
    · intro path given
      obtain ⟨content, name, opened, named, put⟩ := honest.stored none rfl path given
      rw [last] at put
      exact ⟨content, name, opened, named, Option.some.inj put⟩
    · intro unasked unquoted path given
      obtain ⟨lines, bytes, listed, ranged, wrote⟩ :=
        honest.written none rfl unasked unquoted path given
      rw [last] at wrote
      exact ⟨lines, bytes, listed, ranged, Option.some.inj wrote⟩
  · rintro ⟨succeeds, stores, writes⟩
    refine ⟨by simp, ?_, ?_, ?_⟩
    · intro _ _ other member
      rcases List.mem_append.mp member with early | late
      · exact fine other early
      · rw [List.mem_singleton.mp late]
        exact succeeds
    · intro _ _ path given
      obtain ⟨content, name, opened, named, put⟩ := stores path given
      exact ⟨content, name, opened, named, by rw [last, put]⟩
    · intro _ _ unasked unquoted path given
      obtain ⟨lines, bytes, listed, ranged, wrote⟩ := writes unasked unquoted path given
      exact ⟨lines, bytes, listed, ranged, by rw [last, wrote]⟩

/-- An upload is honest exactly when the file is accepted. -/
theorem upload_honest_iff {path : Text} (given : cli.uploadfileOption = some path)
    (fine : ∀ step ∈ before, (world step).isSome = true) :
    FtpHonest ranges world cli
        (before ++ (Program.run world (upload path)).1, (Program.run world (upload path)).2) ↔
      ∀ content name, world (.openFile path) = some content →
        (world (.metadata path)).isSome = true → RustText.fileName path = some name →
          (world (.putFile name content)).isSome = true := by
  simp only [upload, attemptStep, attemptValue, Session.run_demand_bind, Session.run_require_bind,
    Session.run_ignore_bind, Session.run_pure]
  cases opened : world (.openFile path) with
  | none => simp [FtpHonest.of_error]
  | some content =>
    cases known : world (.metadata path) with
    | none => simp [FtpHonest.of_error]
    | some done =>
      cases named : RustText.fileName path with
      | none => simp [FtpHonest.of_error]
      | some name =>
        have all_fine : ∀ step ∈ before ++ [FtpStep.openFile path, FtpStep.metadata path],
            (world step).isSome = true := by
          intro step member
          simp only [List.mem_append, List.mem_cons, List.not_mem_nil, or_false] at member
          rcases member with early | rfl | rfl
          · exact fine step early
          · rw [opened]
            rfl
          · rw [known]
            rfl
        have whole := honest_last_iff ranges cli (.putFile name content) all_fine
        simp only [List.append_assoc, List.cons_append, List.nil_append] at whole
        rw [whole]
        simp [given, opened, named]

/-- Ranges that are valid have ends that the listing has. -/
theorem RangeHeader.bounds {item : Bytes} {range : Text} {list : List (Nat × Nat)}
    (valid : ranges.validate (rangeHeaderText range) item.length = some list) :
    ∀ range ∈ list, range.1 ≤ range.2 ∧ range.2 ≤ item.length := by
  intro range member
  by_cases empty : item.length = 0
  · rw [empty] at valid
    rw [ranges.nothing valid range member]
    exact ⟨Nat.le_refl 0, Nat.zero_le _⟩
  · have bounds := ranges.inside (Nat.pos_of_ne_zero empty) valid range member
    exact ⟨bounds.1, Nat.le_of_lt bounds.2⟩

/-- Ranges inside are cut without a panic. -/
theorem mapM_sliceRange {item : Bytes} {list : List (Nat × Nat)}
    (inside : ∀ range ∈ list, range.1 ≤ range.2 ∧ range.2 ≤ item.length) :
    list.mapM (sliceRange item) = some (list.map (cutRange item)) := by
  induction list with
  | nil => rfl
  | cons range list ih =>
    have bounds := inside range List.mem_cons_self
    have later := ih fun other member => inside other (List.mem_cons_of_mem _ member)
    rw [List.mapM_cons, sliceRange, if_pos bounds, later]
    rfl

/-- Every range that is cut out lacks one byte. -/
theorem cutRange_lacks {item : Bytes} {list : List (Nat × Nat)}
    (inside : ∀ range ∈ list, range.1 ≤ range.2 ∧ range.2 < item.length) :
    (list.map (inclusiveRange item)).flatten.length =
      (list.map (cutRange item)).flatten.length + list.length := by
  induction list with
  | nil => rfl
  | cons range list ih =>
    have bounds := inside range List.mem_cons_self
    have later := ih fun other member => inside other (List.mem_cons_of_mem _ member)
    have whole : (inclusiveRange item range).length = range.2 + 1 - range.1 := by
      rw [inclusiveRange, List.length_drop, List.length_take]
      omega
    have cut : (cutRange item range).length = range.2 - range.1 := by
      rw [cutRange, List.length_drop, List.length_take]
      omega
    rw [List.map_cons, List.map_cons, List.flatten_cons, List.flatten_cons, List.length_append,
      List.length_append, later, whole, cut, List.length_cons]
    omega

/-- There is nothing to cut out of nothing. -/
theorem cutRange_nil (list : List (Nat × Nat)) : (list.map (cutRange [])).flatten = [] := by
  rw [List.flatten_eq_nil_iff]
  intro bytes member
  obtain ⟨range, _, rfl⟩ := List.mem_map.mp member
  simp [cutRange]

/-- There are no bytes of ranges in nothing. -/
theorem inclusiveRange_nil (list : List (Nat × Nat)) :
    (list.map (inclusiveRange [])).flatten = [] := by
  rw [List.flatten_eq_nil_iff]
  intro bytes member
  obtain ⟨range, _, rfl⟩ := List.mem_map.mp member
  simp [inclusiveRange]

/-- The ranges and the ranges without their last bytes differ, unless there is nothing. -/
theorem ranges_eq_cut_iff {item : Bytes} {range : Text} {list : List (Nat × Nat)}
    (valid : ranges.validate (rangeHeaderText range) item.length = some list) :
    (list.map (inclusiveRange item)).flatten = (list.map (cutRange item)).flatten ↔ item = [] := by
  constructor
  · intro same
    by_contra some_item
    have positive : 0 < item.length := List.length_pos_iff.mpr some_item
    have lengths := cutRange_lacks (ranges.inside positive valid)
    have some_range := List.length_pos_iff.mpr (ranges.some_range valid)
    rw [same] at lengths
    omega
  · rintro rfl
    rw [cutRange_nil, inclusiveRange_nil]

/-- What is cut out is the listing, or an error, or its ranges without their last bytes. -/
theorem run_cutRanges (item : Bytes) : Program.run world (cutRanges ranges cli item) =
    match cli.rangeOption with
    | none => ([], .ok item)
    | some range =>
      match ranges.validate (rangeHeaderText range) item.length with
      | none => ([], .error (.error .range))
      | some list => ([], .ok (list.map (cutRange item)).flatten) := by
  rw [cutRanges]
  cases cli.rangeOption with
  | none => rfl
  | some range =>
    simp only [attemptValue, Session.run_require_bind]
    cases valid : ranges.validate (rangeHeaderText range) item.length with
    | none => rfl
    | some list =>
      simp only [mapM_sliceRange (RangeHeader.bounds valid)]
      rfl

/-- A listing that is written is honest exactly when the write succeeds and the bytes are right. -/
theorem write_honest_iff {lines : List Text} {path : Text} {bytes : Bytes}
    (unasked : cli.uploadfileOption = none) (unquoted : cli.quoteOption = none)
    (given : cli.filePathOption = some path) (listed : world .list = some lines)
    (opened : (world (.openOutput path)).isSome = true)
    (fine : ∀ step ∈ before, (world step).isSome = true) :
    FtpHonest ranges world cli (before ++ [.openOutput path, .writeAll path bytes], .ok none) ↔
      (world (.writeAll path bytes)).isSome = true ∧
        rangedListing ranges cli (listing lines) = some bytes := by
  have all_fine : ∀ step ∈ before ++ [FtpStep.openOutput path], (world step).isSome = true := by
    intro step member
    rcases List.mem_append.mp member with early | late
    · exact fine step early
    · rw [List.mem_singleton.mp late]
      exact opened
  have whole := honest_last_iff ranges cli (.writeAll path bytes) all_fine
  rw [List.append_assoc, List.singleton_append] at whole
  rw [whole]
  simp [unasked, unquoted, given, listed]

/-- A listing that is cut is honest exactly when it can be written and the bytes are right. -/
theorem cut_honest_iff {lines : List Text} {bytes : Bytes}
    (unasked : cli.uploadfileOption = none) (unquoted : cli.quoteOption = none)
    (listed : world .list = some lines) (fine : ∀ step ∈ before, (world step).isSome = true)
    (cut : Program.run world (cutRanges ranges cli (listing lines)) = ([], .ok bytes)) :
    FtpHonest ranges world cli
        (before ++ (Program.run world (output ranges cli (listing lines))).1,
          (Program.run world (output ranges cli (listing lines))).2) ↔
      ∀ path, cli.filePathOption = some path → (world (.openOutput path)).isSome = true →
        (world (.writeAll path bytes)).isSome = true ∧
          rangedListing ranges cli (listing lines) = some bytes := by
  rw [output, Session.run_bind_ok cut]
  cases given : cli.filePathOption with
  | none =>
    have printed : FtpHonest ranges world cli (before ++ [], .ok (some bytes)) := by
      rw [List.append_nil]
      constructor
      · simp
      · exact fun _ _ => fine
      · intro _ _ path asked
        rw [unasked] at asked
        contradiction
      · intro _ _ _ _ path named
        rw [given] at named
        contradiction
    exact iff_of_true printed (by simp)
  | some path =>
    simp only [attemptStep, Session.run_demand_bind, Session.run_ignore_bind, Session.run_pure]
    cases opened : world (.openOutput path) with
    | none => simp [FtpHonest.of_error, opened]
    | some done =>
      have able : (world (.openOutput path)).isSome = true := by
        rw [opened]
        rfl
      simp only [List.nil_append]
      rw [write_honest_iff unasked unquoted given listed able fine]
      simp [opened]

/-- A listing is honest exactly when it can be written and no byte is cut off. -/
theorem output_honest_iff (ranges : RangeHeader) {lines : List Text}
    (unasked : cli.uploadfileOption = none) (unquoted : cli.quoteOption = none)
    (listed : world .list = some lines) (fine : ∀ step ∈ before, (world step).isSome = true) :
    FtpHonest ranges world cli
        (before ++ (Program.run world (output ranges cli (listing lines))).1,
          (Program.run world (output ranges cli (listing lines))).2) ↔
      ∀ path, cli.filePathOption = some path → (world (.openOutput path)).isSome = true →
        match cli.rangeOption with
        | none => (world (.writeAll path (listing lines))).isSome = true
        | some range => ∀ list,
            ranges.validate (rangeHeaderText range) (listing lines).length = some list →
              listing lines = [] ∧ (world (.writeAll path [])).isSome = true := by
  have cut : Program.run world (cutRanges ranges cli (listing lines)) = _ :=
    run_cutRanges (listing lines)
  cases asked : cli.rangeOption with
  | none =>
    rw [asked] at cut
    rw [cut_honest_iff unasked unquoted listed fine cut, rangedListing, asked]
    simp
  | some range =>
    simp only [asked] at cut
    cases valid : ranges.validate (rangeHeaderText range) (listing lines).length with
    | none =>
      rw [valid] at cut
      rw [output, Session.run_bind_error cut]
      simp [FtpHonest.of_error, valid]
    | some list =>
      rw [valid] at cut
      have whole := ranges_eq_cut_iff valid
      rw [cut_honest_iff unasked unquoted listed fine cut, rangedListing, asked]
      simp only [valid, Option.map_some, Option.some.injEq, forall_eq', whole]
      refine forall₃_congr fun path _ _ => ?_
      rw [and_comm]
      refine and_congr_right fun empty => ?_
      rw [empty, cutRange_nil]

/-- A transfer is honest exactly where it holds. -/
theorem transfer_honest_iff (ranges : RangeHeader) (cli : Cli)
    (fine : ∀ step ∈ before, (world step).isSome = true) :
    FtpHonest ranges world cli
        (before ++ (Program.run world (transfer ranges cli)).1,
          (Program.run world (transfer ranges cli)).2) ↔
      TransferHolds ranges world cli := by
  rw [transfer]
  cases asked : cli.uploadfileOption with
  | some path =>
    simp only
    rw [upload_honest_iff asked fine]
    constructor
    · intro accepted
      refine ⟨?_, fun lines path unasked => by simp [asked] at unasked⟩
      intro given content name same
      rw [← Option.some.inj (asked.symm.trans same)]
      exact accepted content name
    · exact fun holds content name => holds.accepted path content name asked
  | none =>
    cases quoted : cli.quoteOption with
    | some quote =>
      have holds : TransferHolds ranges world cli :=
        ⟨fun path content name given => by simp [asked] at given,
          fun lines path _ unquoted => by simp [quoted] at unquoted⟩
      simp only [attemptStep, Session.run_demand_bind, Session.run_pure]
      cases accepted : world (.site quote) with
      | none => exact iff_of_true (FtpHonest.of_error .site) holds
      | some done =>
        have succeeds : (world (.site quote)).isSome = true := by
          rw [accepted]
          rfl
        have honest := (honest_last_iff ranges cli (.site quote) fine).mpr
          ⟨succeeds, by simp [asked], by simp [quoted]⟩
        exact iff_of_true honest holds
    | none =>
      simp only [attemptStep, Session.run_demand_bind]
      cases listed : world .list with
      | none =>
        have holds : TransferHolds ranges world cli := by
          constructor
          · intro path content name given
            rw [asked] at given
            contradiction
          · intro lines path _ _ known
            rw [listed] at known
            contradiction
        exact iff_of_true (FtpHonest.of_error .list) holds
      | some lines =>
        have fine_list : ∀ step ∈ before ++ [FtpStep.list], (world step).isSome = true := by
          intro step member
          rcases List.mem_append.mp member with early | late
          · exact fine step early
          · rw [List.mem_singleton.mp late, listed]
            rfl
        have whole := output_honest_iff ranges asked quoted listed fine_list
        rw [List.append_assoc, List.singleton_append] at whole
        simp only
        rw [whole]
        constructor
        · intro writable
          refine ⟨fun path content name given => by simp [asked] at given, ?_⟩
          intro known path _ _ same
          rw [← Option.some.inj (listed.symm.trans same)]
          exact writable path
        · exact fun holds path => holds.writable lines path asked quoted listed

end Transfer

/-- Success means that the transfer happened, exactly where the type is accepted and the transfer
holds once the session is open. -/
theorem ftp_honest_iff {Url : Type} (urls : FtpUrls Url) (ranges : RangeHeader) (world : FtpWorld)
    (cli : Cli) (scheme : Text) :
    FtpHonest ranges world cli (Program.run world (ftpRequest urls ranges cli scheme)) ↔
      (SessionOpens urls world cli scheme →
        (world .transferType).isSome = true ∧ TransferHolds ranges world cli) := by
  rw [ftpRequest]
  by_cases opens : SessionOpens urls world cli scheme
  · have comes := openSession_comes.mpr opens
    have fine := openSession_demands.succeed comes
    rw [Session.run_bind_ok (Prod.ext rfl comes), Session.run_demand_bind]
    cases typed : world .transferType with
    | none =>
      refine iff_of_false (fun honest => honest.calm rfl) ?_
      intro holds
      exact Bool.noConfusion (holds opens).1
    | some done =>
      have fine_typed : ∀ step ∈ (Program.run world (openSession urls cli scheme)).1 ++
          [FtpStep.transferType], (world step).isSome = true := by
        intro step member
        rcases List.mem_append.mp member with early | late
        · exact fine step early
        · rw [List.mem_singleton.mp late, typed]
          rfl
      have whole := transfer_honest_iff ranges cli fine_typed
      rw [List.append_assoc, List.singleton_append] at whole
      simp only
      rw [whole]
      simp [opens]
  · refine iff_of_true ?_ fun known => (opens known).elim
    cases ends : (Program.run world (openSession urls cli scheme)).2 with
    | ok value => exact (opens (openSession_comes.mp ends)).elim
    | error fault =>
      rw [Session.run_bind_error (Prod.ext rfl ends)]
      cases fault with
      | error error => exact FtpHonest.of_error error
      | panicked => exact (openSession_demands.stops ends rfl).elim

/-! ## An upload that is refused -/

/-- A world in which every step succeeds but `STOR`. -/
def refusingWorld : FtpWorld
  | .openFile _ => some [104, 105]
  | .list => some []
  | .putFile _ _ => none
  | .connect _ _ | .intoSecure _ | .login _ _ | .cwd _ | .transferType | .metadata _ | .site _
  | .openOutput _ | .writeAll _ _ => some ()

/-- URLs with a host and a path, and without credentials. -/
def plainFtpUrls : FtpUrls Uri where
  toUri := parseUnder "ftp".toList
  parse := parseUnder "ftp".toList
  username _ := []
  password _ := none

/-- No range is ever asked for. -/
def noRanges : RangeHeader where
  validate _ _ := none
  some_range := by simp
  inside := by simp
  nothing := by simp

/-- `rcurl -u u:p -T a.txt ftp://h/`. -/
def uploadCli : Cli :=
  { url := some "ftp://h/".toList, authorityOption := some "u:p".toList,
    uploadfileOption := some "a.txt".toList }

/-- The refused upload is reported as a success. -/
theorem refused_upload : ¬ ∀ (world : FtpWorld) (cli : Cli) (scheme : Text),
    FtpHonest noRanges world cli
      (Program.run world (ftpRequest plainFtpUrls noRanges cli scheme)) := by
  intro honest
  have ends : (Program.run refusingWorld
      (ftpRequest plainFtpUrls noRanges uploadCli "ftp".toList)).2 = .ok none := by rfl
  have issued : FtpStep.putFile "a.txt".toList [104, 105] ∈ (Program.run refusingWorld
      (ftpRequest plainFtpUrls noRanges uploadCli "ftp".toList)).1 := by decide
  have accepted := (honest refusingWorld uploadCli "ftp".toList).succeeded none ends _ issued
  contradiction

end Rcurl
