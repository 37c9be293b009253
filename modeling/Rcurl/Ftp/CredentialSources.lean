import Rcurl.Foundation.PercentEncoding
import Rcurl.Ftp.ClearLogin

/-!
# Where the credentials come from

A session logs in with `-u`, or else with the user and the password of its URL, as the URL spells them.
Both logins are the same when nothing in the URL is escaped and there is a password; and a URL without
credentials never gets to an anonymous session. `credential_sources` says both.
-/

namespace Rcurl

open ShellWords (Text)
open Session (Program)

/-- The characters of a user or a password in a URL that need no escape. -/
def isUserinfoChar (c : Char) : Bool :=
  33 ≤ c.toNat && c.toNat < 127 && !("\"#<>?^{}/:;=@[\\]|%".toList.contains c) && c != Char.ofNat 96

/-- A user or a password as a URL spells it. -/
def userinfo (text : Text) : Text := Percent.encode isUserinfoChar text

/-- A URL without credentials. -/
def plainUrl (scheme rest : Text) : Text := scheme ++ ("://".toList ++ rest)

/-- A URL with a user and a password. -/
def credentialUrl (scheme user password rest : Text) : Text :=
  scheme ++ ("://".toList ++ (userinfo user ++ ':' :: (userinfo password ++ '@' :: rest)))

/-- Two FTP URLs that differ in their credentials alone, as the parsers read them: the host, the port and
the path are the same, and the user and the password stay as they are spelled. -/
structure ReadUrls {Url : Type} (urls : FtpUrls Url) (scheme user password rest host : Text)
    (plain full : Uri) (plainRead fullRead : Url) : Prop where
  /-- The URL without credentials is a URI. -/
  plain_uri : urls.toUri (plainUrl scheme rest) = some plain
  /-- The other one is. -/
  full_uri : urls.toUri (credentialUrl scheme user password rest) = some full
  /-- The URL without credentials names the host. -/
  plain_host : plain.host = some host
  /-- The other one names the same host. -/
  full_host : full.host = some host
  /-- Both have the same port, or none. -/
  same_port : full.port = plain.port
  /-- Both ask for the same file. -/
  same_path : full.path = plain.path
  /-- The URL without credentials is a URL. -/
  plain_url : urls.parse (plainUrl scheme rest) = some plainRead
  /-- The other one is. -/
  full_url : urls.parse (credentialUrl scheme user password rest) = some fullRead
  /-- Without credentials there is no password. -/
  plain_password : urls.password plainRead = none
  /-- The user stays as it is spelled, escapes and all. -/
  full_user : urls.username fullRead = userinfo user
  /-- The password, as it is spelled; an empty one counts as none. -/
  full_password : urls.password fullRead = if password = [] then none else some (userinfo password)

/-- The logins of a session. -/
def loginsOf (trace : List FtpStep) : List (Text × Text) :=
  trace.filterMap fun step => match step with
    | .login user password => some (user, password)
    | _ => none

/-- The server takes the connection, and makes it secure for `ftps`. -/
def sessionOpens (world : FtpWorld) (scheme host : Text) (uri : Uri) : Bool :=
  (world (.connect host (uri.port.getD 21))).isSome &&
    (scheme != "ftps".toList || (world (.intoSecure host)).isSome)

/-- The session gets beyond its opening: it logs in, or goes to its directory. -/
def Proceeds (trace : List FtpStep) : Prop :=
  ∃ step ∈ trace, step.IsLogin ∨ ∃ path, step = .cwd path

/-- The steps of a session on a URL, with or without `-u`. -/
def sessionTrace {Url : Type} (urls : FtpUrls Url) (ranges : RangeHeader) (world : FtpWorld) (cli : Cli)
    (scheme text : Text) (authority : Option Text) : List FtpStep :=
  (Program.run world
    (ftpRequest urls ranges { cli with url := some text, authorityOption := authority } scheme)).1

section Logins

variable {Url : Type} {urls : FtpUrls Url} {ranges : RangeHeader} {world : FtpWorld} {cli : Cli}
  {scheme text host : Text} {uri : Uri}

/-- The logins of two traces. -/
theorem loginsOf_append (front back : List FtpStep) :
    loginsOf (front ++ back) = loginsOf front ++ loginsOf back := List.filterMap_append

/-- Steps that are no logins. -/
theorem loginsOf_quiet {trace : List FtpStep} (quiet : ∀ step ∈ trace, ¬ step.IsLogin) :
    loginsOf trace = [] := by
  apply List.filterMap_eq_nil_iff.mpr
  intro step member
  have other := quiet step member
  cases step with
  | login user password => exact absurd trivial other
  | _ => rfl

/-- What follows without logins does not change them. -/
theorem loginsOf_bind {α β : Type} {first : FtpProgram α} {second : α → FtpProgram β}
    (quiet : ∀ value, Program.Issues (¬ FtpStep.IsLogin ·) (second value)) :
    loginsOf (Program.run world (first >>= second)).1 = loginsOf (Program.run world first).1 := by
  rw [Session.trace_bind, loginsOf_append]
  cases (Program.run world first).2 with
  | ok value =>
    have later : loginsOf (Program.run world (second value)).1 = [] :=
      loginsOf_quiet (quiet value).trace
    exact (congrArg (loginsOf (Program.run world first).1 ++ ·) later).trans (List.append_nil _)
  | error fault => exact List.append_nil _

/-- The steps before the login. -/
def opening (scheme host : Text) (uri : Uri) : List FtpStep :=
  .connect host (uri.port.getD 21) :: if scheme = "ftps".toList then [.intoSecure host] else []

/-- No step of an opening goes beyond it. -/
theorem opening_quiet :
    ∀ step ∈ opening scheme host uri, ¬ (step.IsLogin ∨ ∃ path, step = .cwd path) := by
  intro step member
  rcases List.mem_cons.mp member with rfl | later
  · rintro (login | ⟨path, same⟩)
    · exact login
    · contradiction
  · by_cases secure : scheme = "ftps".toList
    · rw [if_pos secure] at later
      rw [List.mem_singleton.mp later]
      rintro (login | ⟨path, same⟩)
      · exact login
      · contradiction
    · rw [if_neg secure] at later
      exact absurd later List.not_mem_nil

/-- Once it is open, a session goes on with its login and its directory. -/
theorem openSession_opens (given : cli.url = some text) (parsed : urls.toUri text = some uri)
    (known : uri.host = some host) (opens : sessionOpens world scheme host uri = true) :
    Program.run world (openSession urls cli scheme) =
      (opening scheme host uri ++ (Program.run world (do
        ftpLogin urls cli text uri
        attemptStep (.cwd uri.path) .cwd)).1,
      (Program.run world (do
        ftpLogin urls cli text uri
        attemptStep (.cwd uri.path) .cwd)).2) := by
  have both := Bool.and_eq_true_iff.mp opens
  obtain ⟨connected, reached⟩ := Option.isSome_iff_exists.mp both.1
  simp only [openSession, attemptValue, attemptStep, Session.run_require_bind, given, parsed, known,
    Session.run_demand_bind, reached]
  by_cases secure : scheme = "ftps".toList
  · have upgraded : (world (.intoSecure host)).isSome = true :=
      (Bool.or_eq_true_iff.mp both.2).resolve_left fun other => (bne_iff_ne.mp other) secure
    obtain ⟨done, accepted⟩ := Option.isSome_iff_exists.mp upgraded
    rw [ftpUpgrade, if_pos secure, opening, if_pos secure]
    simp only [attemptStep, Session.run_demand_bind, accepted]
    rfl
  · rw [ftpUpgrade, if_neg secure, opening, if_neg secure]
    rfl

/-- A session that does not open stops without a login. -/
theorem openSession_refused (given : cli.url = some text) (parsed : urls.toUri text = some uri)
    (known : uri.host = some host) (opens : sessionOpens world scheme host uri = false) :
    loginsOf (Program.run world (openSession urls cli scheme)).1 = [] := by
  simp only [openSession, attemptValue, attemptStep, Session.run_require_bind, given, parsed, known,
    Session.run_demand_bind]
  cases reached : world (.connect host (uri.port.getD 21)) with
  | none => rfl
  | some connected =>
    have both : (scheme != "ftps".toList || (world (.intoSecure host)).isSome) = false := by
      rw [sessionOpens, reached] at opens
      exact opens
    have parts := Bool.or_eq_false_iff.mp both
    have secure : scheme = "ftps".toList := bne_eq_false_iff_eq.mp parts.1
    have refused : world (.intoSecure host) = none :=
      Option.isNone_iff_eq_none.mp (Option.isSome_eq_false_iff.mp parts.2)
    rw [ftpUpgrade, if_pos secure]
    simp only [attemptStep, Session.run_demand_bind, refused]
    rfl

/-- Up to the directory, once it is open, a session logs in with its credentials. -/
theorem ftpLogin_logins :
    loginsOf (Program.run world (do
        ftpLogin urls cli text uri
        attemptStep (.cwd uri.path) .cwd)).1 = (credentials urls cli text uri).toList := by
  rw [loginsOf_bind fun _ => attemptStep_issues _ _ id, ftpLogin_trace]
  cases credentials urls cli text uri with
  | none => rfl
  | some known => rfl

/-- A session logs in with its credentials, once it is open, and only then. -/
theorem ftpRequest_logins (given : cli.url = some text) (parsed : urls.toUri text = some uri)
    (known : uri.host = some host) :
    loginsOf (Program.run world (ftpRequest urls ranges cli scheme)).1 =
      if sessionOpens world scheme host uri then (credentials urls cli text uri).toList else [] := by
  have quiet : ∀ _ : Unit, Program.Issues (¬ FtpStep.IsLogin ·) (do
      Program.demand FtpStep.transferType FtpFault.panicked
      transfer ranges cli) := by
    intro opened
    exact Session.issues_bind (Session.issues_demand id) fun _ => transfer_issues
  rw [ftpRequest, loginsOf_bind quiet]
  cases opens : sessionOpens world scheme host uri with
  | false =>
    rw [openSession_refused given parsed known opens]
    rfl
  | true =>
    have before : loginsOf (opening scheme host uri) = [] :=
      loginsOf_quiet fun step member login => opening_quiet step member (.inl login)
    rw [openSession_opens given parsed known opens, loginsOf_append, before, List.nil_append,
      ftpLogin_logins, if_pos rfl]

/-- A URL with a host has an authority. -/
theorem authority_of_host (known : uri.host = some host) : uri.authority.isSome = true := by
  cases shape : uri.authority with
  | some found => rfl
  | none =>
    rw [Uri.host, shape] at known
    contradiction

/-- A session without credentials never gets beyond its opening. -/
theorem ftpRequest_anonymous (given : cli.url = some text) (parsed : urls.toUri text = some uri)
    (known : uri.host = some host) (opens : sessionOpens world scheme host uri = true)
    {url : Url} (read : urls.parse text = some url) (plainly : cli.authorityOption = none)
    (absent : urls.password url = none) :
    (Program.run world (ftpRequest urls ranges cli scheme)).1 = opening scheme host uri := by
  have authority := authority_of_host known
  have login : Program.run world (ftpLogin urls cli text uri) = ([], .error (.error .passwordEmpty)) := by
    rw [ftpLogin, plainly]
    simp only [if_pos authority, loginFromUrl, attemptValue, Session.run_require_bind, read, absent]
  have stops : Program.run world (openSession urls cli scheme) =
      (opening scheme host uri, .error (.error .passwordEmpty)) := by
    rw [openSession_opens given parsed known opens, Session.run_bind_error login, List.append_nil]
  rw [ftpRequest, Session.run_bind_error stops]

end Logins

section Sources

variable {Url : Type} (urls : FtpUrls Url) (ranges : RangeHeader) (world : FtpWorld) (cli : Cli)
  (scheme user password rest : Text)

/-- `-u` and the URL log in with the same user and password. -/
def PairsAgree : Prop :=
  loginsOf (sessionTrace urls ranges world cli scheme (plainUrl scheme rest)
      (some (user ++ ':' :: password))) = [(user, password)] ∧
    loginsOf (sessionTrace urls ranges world cli scheme (credentialUrl scheme user password rest) none) =
      [(user, password)]

/-- With both of them, `-u` counts. -/
def OptionPrecedes : Prop :=
  ∀ given secret : Text, ':' ∉ given →
    loginsOf (sessionTrace urls ranges world cli scheme (credentialUrl scheme user password rest)
      (some (given ++ ':' :: secret))) = [(given, secret)]

/-- With neither of them, the session goes on anonymously. -/
def ProceedsAnonymously : Prop :=
  Proceeds (sessionTrace urls ranges world cli scheme (plainUrl scheme rest) none)

variable {urls ranges world cli scheme user password rest}
variable {host : Text} {plain full : Uri} {plainRead fullRead : Url}

/-- The credentials of `-u`. -/
theorem credentials_option {text : Text} {uri : Uri} (colon : ':' ∉ user) :
    credentials urls { cli with url := some text, authorityOption := some (user ++ ':' :: password) }
      text uri = some (user, password) :=
  RustText.splitTwo_first colon

/-- The credentials of a URL, as they are spelled. -/
theorem credentials_url
    (read : ReadUrls urls scheme user password rest host plain full plainRead fullRead) :
    credentials urls { cli with url := some (credentialUrl scheme user password rest),
                                authorityOption := none }
      (credentialUrl scheme user password rest) full =
      if password = [] then none else some (userinfo user, userinfo password) := by
  have whole : credentials urls { cli with url := some (credentialUrl scheme user password rest),
                                           authorityOption := none }
      (credentialUrl scheme user password rest) full =
      (urls.parse (credentialUrl scheme user password rest)).bind fun url =>
        (urls.password url).map (urls.username url, ·) := if_pos (authority_of_host read.full_host)
  rw [whole, read.full_url, Option.bind_some, read.full_password, read.full_user]
  by_cases empty : password = []
  · rw [if_pos empty, if_pos empty]
    rfl
  · rw [if_neg empty, if_neg empty]
    rfl

/-- The sessions on both URLs open together. -/
theorem opens_together
    (read : ReadUrls urls scheme user password rest host plain full plainRead fullRead) :
    sessionOpens world scheme host full = sessionOpens world scheme host plain := by
  rw [sessionOpens, sessionOpens, read.same_port]

/-- In a session that opens, both sources give the same pair exactly when nothing of it is escaped and
there is a password. -/
theorem pairsAgree_iff
    (read : ReadUrls urls scheme user password rest host plain full plainRead fullRead)
    (colon : ':' ∉ user) (opens : sessionOpens world scheme host plain = true) :
    PairsAgree urls ranges world cli scheme user password rest ↔
      (∀ c ∈ user ++ password, isUserinfoChar c = true) ∧ password ≠ [] := by
  have openly := (opens_together read).trans opens
  rw [PairsAgree, sessionTrace, sessionTrace,
    ftpRequest_logins rfl read.plain_uri read.plain_host,
    ftpRequest_logins rfl read.full_uri read.full_host, if_pos opens, if_pos openly,
    credentials_option colon, credentials_url read, Option.toList_some, and_iff_right rfl,
    List.forall_mem_append, ← Percent.encode_eq_self_iff, ← Percent.encode_eq_self_iff]
  by_cases empty : password = []
  · rw [if_pos empty]
    exact iff_of_false (by simp) fun both => both.2 empty
  · rw [if_neg empty, Option.toList_some, List.cons.injEq, and_iff_left rfl, Prod.mk.injEq,
      and_iff_left empty]
    exact Iff.rfl

/-- In a session that opens, `-u` counts. -/
theorem optionPrecedes
    (read : ReadUrls urls scheme user password rest host plain full plainRead fullRead)
    (opens : sessionOpens world scheme host plain = true) :
    OptionPrecedes urls ranges world cli scheme user password rest := by
  intro given secret absent
  rw [sessionTrace, ftpRequest_logins rfl read.full_uri read.full_host,
    if_pos ((opens_together read).trans opens), credentials_option absent, Option.toList_some]

/-- A session that opens without credentials goes no further. -/
theorem not_proceedsAnonymously
    (read : ReadUrls urls scheme user password rest host plain full plainRead fullRead)
    (opens : sessionOpens world scheme host plain = true) :
    ¬ ProceedsAnonymously urls ranges world cli scheme rest := by
  rintro ⟨step, member, beyond⟩
  rw [sessionTrace, ftpRequest_anonymous rfl read.plain_uri read.plain_host opens read.plain_url rfl
    read.plain_password] at member
  exact opening_quiet step member beyond

/-- The two sources of credentials. As far as a session opens, `-u` and the URL log in with the same
pair exactly when nothing of it is escaped and there is a password; `-u` counts when there are both; and
a session without either of them goes on only where none opens. -/
theorem credential_sources
    (read : ReadUrls urls scheme user password rest host plain full plainRead fullRead)
    (colon : ':' ∉ user) :
    ((sessionOpens world scheme host plain = true →
        PairsAgree urls ranges world cli scheme user password rest) ↔
      (sessionOpens world scheme host plain = true →
        (∀ c ∈ user ++ password, isUserinfoChar c = true) ∧ password ≠ [])) ∧
    (sessionOpens world scheme host plain = true →
      OptionPrecedes urls ranges world cli scheme user password rest) ∧
    ((sessionOpens world scheme host plain = true →
        ProceedsAnonymously urls ranges world cli scheme rest) ↔
      sessionOpens world scheme host plain = false) := by
  refine ⟨imp_congr_right fun opens => pairsAgree_iff read colon opens, optionPrecedes read, ?_⟩
  rw [← Bool.not_eq_true]
  exact ⟨fun proceeds opens => not_proceedsAnonymously read opens (proceeds opens),
    fun refused opens => absurd opens refused⟩

end Sources

/-! ## A password with an `@` -/

/-- What stands before the `@` of an FTP URL, and the URL without it. -/
def splitUserinfo (text : Text) : Text × Text :=
  match RustText.splitTwo '@' (text.drop "ftp://".toList.length) with
  | some parts => (parts.1, "ftp://".toList ++ parts.2)
  | none => ([], text)

/-- FTP URLs that need no normalization, with a user and a password. -/
def userinfoUrls : FtpUrls Text where
  toUri text := parseUnder "ftp".toList (splitUserinfo text).2
  parse text := some (splitUserinfo text).1
  username info := info.takeWhile (· ≠ ':')
  password info := match RustText.splitTwo ':' info with
    | some (_, secret) => if secret = [] then none else some secret
    | none => none

/-- The host `h` is visible. -/
theorem visible_h : "h".toList ≠ [] ∧ ∀ c ∈ "h".toList, 33 ≤ c.toNat ∧ c.toNat < 127 :=
  ⟨List.cons_ne_nil _ _, List.forall_mem_singleton.mpr ⟨by decide, by decide⟩⟩

/-- `ftp://h/`. -/
def hostUri : Uri :=
  { scheme := some "ftp".toList, authority := some ⟨"h".toList, none, visible_h⟩, path := "/".toList,
    query := none }

/-- `ftp://h/` and `ftp://u:p%40s@h/`. -/
theorem read_escaped : ReadUrls userinfoUrls "ftp".toList "u".toList "p@s".toList "h/".toList
    "h".toList hostUri hostUri [] "u:p%40s".toList where
  plain_uri := by decide
  full_uri := by decide
  plain_host := by decide
  full_host := by decide
  same_port := by decide
  same_path := by decide
  plain_url := by decide
  full_url := by decide
  plain_password := by decide
  full_user := by decide
  full_password := by decide

/-- A session on `ftp://h/` and `ftp://u:p%40s@h/`. -/
theorem credential_sources_escaped :
    (sessionOpens refusingWorld "ftp".toList "h".toList hostUri = true →
      PairsAgree userinfoUrls noRanges refusingWorld {} "ftp".toList "u".toList "p@s".toList "h/".toList) ↔
    (sessionOpens refusingWorld "ftp".toList "h".toList hostUri = true →
      (∀ c ∈ "u".toList ++ "p@s".toList, isUserinfoChar c = true) ∧ "p@s".toList ≠ []) :=
  (credential_sources read_escaped (by decide)).1

/-- The URL logs in with `p%40s`, and without credentials there is no session. -/
theorem escaped_password :
    (¬ ∀ user password rest : Text, ∀ host plain full plainRead fullRead,
      ReadUrls userinfoUrls "ftp".toList user password rest host plain full plainRead fullRead →
        ':' ∉ user → sessionOpens refusingWorld "ftp".toList host plain = true →
          PairsAgree userinfoUrls noRanges refusingWorld {} "ftp".toList user password rest) ∧
    ¬ ProceedsAnonymously userinfoUrls noRanges refusingWorld {} "ftp".toList "h/".toList := by
  have opens : sessionOpens refusingWorld "ftp".toList "h".toList hostUri = true := by decide
  refine ⟨fun agree => ?_, not_proceedsAnonymously read_escaped opens⟩
  have both := (pairsAgree_iff read_escaped (by decide) opens).mp
    (agree _ _ _ _ _ _ _ _ read_escaped (by decide) opens)
  exact absurd both.1 (by decide)

end Rcurl
