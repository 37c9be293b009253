import Rcurl.App.Run
import Rcurl.Ftp.Success

/-!
# Logins in clear

A session for a secure scheme should log in on an upgraded connection only. The dispatch takes `ftps`
and `sftp` for secure schemes, the session upgrades for `ftps` alone: a session for `sftp` logs in in
clear as soon as it gets to its login. `secure_login_iff` says when it does not.
-/

namespace Rcurl

open ShellWords (Text)
open Session (Program)

/-- A login. -/
def FtpStep.IsLogin : FtpStep → Prop
  | .login _ _ => True
  | .connect _ _ | .intoSecure _ | .cwd _ | .transferType | .openFile _ | .metadata _ | .putFile _ _
  | .site _ | .list | .openOutput _ | .writeAll _ _ => False

/-- An upgrade that the server accepts. -/
def FtpStep.Upgrades (world : FtpWorld) (step : FtpStep) : Prop :=
  ∃ host, step = .intoSecure host ∧ (world (.intoSecure host)).isSome = true

/-- Every login comes after an upgrade. -/
def NoClearLogin (world : FtpWorld) (trace : List FtpStep) : Prop :=
  Session.Guarded (FtpStep.Upgrades world) FtpStep.IsLogin trace

/-- The scheme of a URL, for the dispatch. -/
def FtpUrls.schemeOf {Url : Type} (urls : FtpUrls Url) (text : Text) : Option (Option Text) :=
  (urls.toUri text).map (·.scheme)

/-- The user and the password of a session: those of `-u`, else those of the URL. -/
def credentials {Url : Type} (urls : FtpUrls Url) (cli : Cli) (text : Text) (uri : Uri) :
    Option (Text × Text) :=
  match cli.authorityOption with
  | some authority => RustText.splitTwo ':' authority
  | none =>
    if uri.authority.isSome then
      (urls.parse text).bind fun url => (urls.password url).map (urls.username url, ·)
    else none

/-- A session that does not upgrade gets to its login: the URL has a host, the server can be
reached, and there are credentials. -/
def ReachesLogin {Url : Type} (urls : FtpUrls Url) (world : FtpWorld) (cli : Cli) : Prop :=
  ∃ text uri host, cli.url = some text ∧ urls.toUri text = some uri ∧ uri.host = some host ∧
    (world (.connect host (uri.port.getD 21))).isSome = true ∧
      (credentials urls cli text uri).isSome = true

section Steps

variable {Url : Type} {urls : FtpUrls Url} {ranges : RangeHeader} {world : FtpWorld} {cli : Cli}
  {scheme : Text}

@[simp] theorem not_upgrades_connect {host : Text} {port : UInt16} :
    ¬ (FtpStep.connect host port).Upgrades world := nofun

/-- No step but the login issues one. -/
theorem attemptStep_issues (step : FtpStep) (error : FtpError) (other : ¬ step.IsLogin) :
    Program.Issues (¬ FtpStep.IsLogin ·) (attemptStep step error) :=
  Session.issues_demand other

/-- Writing a listing issues no login. -/
theorem output_issues (item : Bytes) :
    Program.Issues (¬ FtpStep.IsLogin ·) (output ranges cli item) := by
  have cut : Program.Issues (¬ FtpStep.IsLogin ·) (cutRanges ranges cli item) := by
    rw [cutRanges]
    split
    · trivial
    · apply Session.issues_bind Session.issues_require
      intro list
      exact Session.issues_bind Session.issues_require fun _ => trivial
  apply Session.issues_bind cut
  intro item
  split
  · trivial
  · apply Session.issues_bind (attemptStep_issues _ _ id)
    intro opened
    exact Session.issues_bind (Session.issues_ignore id) fun _ => trivial

/-- Once the session is open no login is issued. -/
theorem transfer_issues : Program.Issues (¬ FtpStep.IsLogin ·) (transfer ranges cli) := by
  rw [transfer]
  split
  · apply Session.issues_bind (attemptStep_issues _ _ id)
    intro content
    apply Session.issues_bind (attemptStep_issues _ _ id)
    intro known
    apply Session.issues_bind Session.issues_require
    intro name
    exact Session.issues_bind (Session.issues_ignore id) fun _ => trivial
  · exact Session.issues_bind (attemptStep_issues _ _ id) fun _ => trivial
  · exact Session.issues_bind (attemptStep_issues _ _ id) fun lines => output_issues _

/-- A login is issued exactly when there are credentials, and with them. -/
theorem ftpLogin_trace (text : Text) (uri : Uri) :
    (Program.run world (ftpLogin urls cli text uri)).1 =
      ((credentials urls cli text uri).map fun known => .login known.1 known.2).toList := by
  rw [ftpLogin, credentials]
  cases cli.authorityOption with
  | some authority =>
    simp only [loginWith, attemptValue, attemptStep, Session.run_require_bind]
    cases RustText.splitTwo ':' authority with
    | none => rfl
    | some parts => exact Session.trace_demand _ _
  | none =>
    cases uri.authority with
    | none => rfl
    | some authority =>
      simp only [Option.isSome_some, if_true, loginFromUrl, attemptValue, attemptStep,
        Session.run_require_bind]
      cases urls.parse text with
      | none => rfl
      | some url =>
        simp only [Option.bind_some]
        cases urls.password url with
        | none => rfl
        | some password => exact Session.trace_demand _ _

/-- After the upgrade nothing upgrades: a login there has nothing to wait for. -/
theorem login_guarded_iff (text : Text) (uri : Uri) :
    NoClearLogin world (Program.run world (do
        ftpLogin urls cli text uri
        attemptStep (.cwd uri.path) .cwd)).1 ↔
      ¬ (credentials urls cli text uri).isSome = true := by
  rw [NoClearLogin, Session.guarded_bind_iff fun _ => attemptStep_issues _ _ id, ftpLogin_trace]
  cases credentials urls cli text uri with
  | none => exact iff_of_true (Session.guarded_of_none (by simp)) (by simp)
  | some known => simp [Session.guarded_cons, FtpStep.IsLogin]

/-- After the connection, the login waits for the upgrade of `ftps` alone. -/
theorem upgrade_guarded_iff (text host : Text) (uri : Uri) :
    NoClearLogin world (Program.run world (do
        ftpUpgrade scheme host
        ftpLogin urls cli text uri
        attemptStep (.cwd uri.path) .cwd)).1 ↔
      (scheme ≠ "ftps".toList → ¬ (credentials urls cli text uri).isSome = true) := by
  rw [ftpUpgrade]
  by_cases secure : scheme = "ftps".toList
  · rw [if_pos secure, attemptStep, NoClearLogin, Session.guarded_demand_bind_iff]
    refine iff_of_true ⟨id, ?_⟩ fun other => (other secure).elim
    intro done accepted
    refine Or.inl ⟨host, rfl, ?_⟩
    rw [accepted]
    rfl
  · rw [if_neg secure]
    exact (login_guarded_iff text uri).trans ⟨fun absent _ => absent, fun absent => absent secure⟩

/-- Up to the directory, a session logs in on an upgraded connection only, exactly when it is one for
`ftps` or does not get to its login. -/
theorem openSession_guarded_iff :
    NoClearLogin world (Program.run world (openSession urls cli scheme)).1 ↔
      (scheme ≠ "ftps".toList → ¬ ReachesLogin urls world cli) := by
  have connected : ∀ text uri host, Session.Guarded (FtpStep.Upgrades world) FtpStep.IsLogin
      (Program.run world (do
        attemptStep (.connect host (uri.port.getD 21)) .connect
        ftpUpgrade scheme host
        ftpLogin urls cli text uri
        attemptStep (.cwd uri.path) .cwd)).1 ↔
      ((world (.connect host (uri.port.getD 21))).isSome = true → scheme ≠ "ftps".toList →
        ¬ (credentials urls cli text uri).isSome = true) := by
    intro text uri host
    have other : ¬ (FtpStep.connect host (uri.port.getD 21)).IsLogin := id
    rw [attemptStep, Session.guarded_demand_bind_iff, and_iff_right other]
    simp only [not_upgrades_connect, false_or, eq_some_unit]
    rw [forall_const]
    exact imp_congr_right fun _ => upgrade_guarded_iff text host uri
  simp only [NoClearLogin, openSession, attemptValue, Session.guarded_require_bind_iff, connected]
  constructor
  · rintro guarded other ⟨text, uri, host, given, parsed, known, reached, logs⟩
    exact guarded text given uri parsed host known reached other logs
  · intro absent text given uri parsed host known reached other logs
    exact absent other ⟨text, uri, host, given, parsed, known, reached, logs⟩

/-- The whole session is as good as its opening. -/
theorem ftpRequest_guarded_iff (ranges : RangeHeader) :
    NoClearLogin world (Program.run world (ftpRequest urls ranges cli scheme)).1 ↔
      (scheme ≠ "ftps".toList → ¬ ReachesLogin urls world cli) := by
  rw [← openSession_guarded_iff, NoClearLogin, ftpRequest]
  apply Session.guarded_bind_iff
  intro opened
  exact Session.issues_bind (Session.issues_demand id) fun _ => transfer_issues

end Steps

/-- The dispatch takes a command line for one of a secure scheme. -/
def SecureScheme {Url : Type} (urls : FtpUrls Url) (cli : Cli) (scheme : Text) : Prop :=
  executeRequest urls.schemeOf cli = .ftpRequest scheme ∧
    (scheme = "ftps".toList ∨ scheme = "sftp".toList)

/-- A session for a secure scheme logs in on an upgraded connection only, exactly when its scheme is
`ftps` or it does not get to its login. -/
theorem secure_login_iff {Url : Type} (urls : FtpUrls Url) (ranges : RangeHeader) (world : FtpWorld)
    (cli : Cli) (scheme : Text) (secure : SecureScheme urls cli scheme) :
    NoClearLogin world (Program.run world (ftpRequest urls ranges cli scheme)).1 ↔
      (scheme = "sftp".toList → ¬ ReachesLogin urls world cli) := by
  rw [ftpRequest_guarded_iff]
  rcases secure.2 with rfl | rfl
  · exact iff_of_true (fun other => (other rfl).elim) fun same => absurd same (by decide)
  · exact ⟨fun absent _ => absent (by decide), fun absent _ => absent rfl⟩

/-! ## A login for `sftp` -/

/-- URLs of the two secure schemes, without credentials. -/
def secureFtpUrls : FtpUrls Uri where
  toUri text := (parseUnder "ftps".toList text).or (parseUnder "sftp".toList text)
  parse text := (parseUnder "ftps".toList text).or (parseUnder "sftp".toList text)
  username _ := []
  password _ := none

/-- `rcurl -u u:p ftps://h/`. -/
def ftpsCli : Cli := { url := some "ftps://h/".toList, authorityOption := some "u:p".toList }

/-- `rcurl -u u:p sftp://h/`. -/
def sftpCli : Cli := { url := some "sftp://h/".toList, authorityOption := some "u:p".toList }

/-- A session for `ftps`. -/
theorem secure_login_ftps : NoClearLogin refusingWorld
    (Program.run refusingWorld (ftpRequest secureFtpUrls noRanges ftpsCli "ftps".toList)).1 :=
  (secure_login_iff secureFtpUrls noRanges refusingWorld ftpsCli "ftps".toList
    ⟨by decide, by decide⟩).mpr fun same => absurd same (by decide)

/-- A session for `sftp` logs in on its plain connection. -/
theorem sftp_login_clear : ¬ ∀ (world : FtpWorld) (cli : Cli) (scheme : Text),
    SecureScheme secureFtpUrls cli scheme → NoClearLogin world
      (Program.run world (ftpRequest secureFtpUrls noRanges cli scheme)).1 := by
  intro never
  have clear := never refusingWorld sftpCli "sftp".toList ⟨by decide, by decide⟩
  obtain ⟨earlier, before, host, upgrade, _⟩ := clear [.connect "h".toList 21]
    (.login "u".toList "p".toList) [.cwd "/".toList, .transferType, .list] (by rfl) trivial
  rw [List.mem_singleton.mp before] at upgrade
  contradiction

end Rcurl
