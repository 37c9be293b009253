import Rcurl.Foundation.Protocol
import Rcurl.Ftp.CredentialSources

/-!
# The protocol of an FTP session

The order in which a session talks to the server, as a machine of its own: connect, make the connection
secure for `ftps`, log in, change the directory, set the type, and then exactly one of the three
transfers, with the steps at the local files in their places. Every trace of `ftp_request` is accepted,
ends behind a transfer when the session succeeds, and goes no further than the first step that fails.
-/

namespace Rcurl

open ShellWords (Text)
open Session (Program)

/-- How far a session has come. -/
inductive FtpPhase where
  /-- Nothing was done. -/
  | idle
  /-- The connection stands, in clear. -/
  | connected
  /-- The connection is encrypted. -/
  | secured
  /-- The user is known. -/
  | loggedIn
  /-- The directory is set. -/
  | placed
  /-- The type is set. -/
  | ready
  /-- The file to upload is open. -/
  | opened
  /-- Its length is known. -/
  | measured
  /-- The listing is there. -/
  | listed
  /-- The output file is open. -/
  | writing
  /-- The transfer was done. -/
  | finished
  deriving DecidableEq, Repr

/-- A step that belongs to a phase, and the phase behind it. -/
def FtpPhase.next (cli : Cli) (scheme : Text) : FtpPhase → FtpStep → Option FtpPhase
  | .idle, .connect _ _ => some .connected
  | .connected, .intoSecure _ => if scheme = "ftps".toList then some .secured else none
  | .connected, .login _ _ => if scheme = "ftps".toList then none else some .loggedIn
  | .secured, .login _ _ => some .loggedIn
  | .loggedIn, .cwd _ => some .placed
  | .placed, .transferType => some .ready
  | .ready, .openFile path => if cli.uploadfileOption = some path then some .opened else none
  | .opened, .metadata path => if cli.uploadfileOption = some path then some .measured else none
  | .measured, .putFile _ _ => some .finished
  | .ready, .site quote =>
    if cli.uploadfileOption = none ∧ cli.quoteOption = some quote then some .finished else none
  | .ready, .list =>
    if cli.uploadfileOption = none ∧ cli.quoteOption = none then some .listed else none
  | .listed, .openOutput path => if cli.filePathOption = some path then some .writing else none
  | .writing, .writeAll path _ => if cli.filePathOption = some path then some .finished else none
  | _, _ => none

/-- The phases behind a transfer: something was printed, or else it is done. -/
def FtpPhase.Fits (printed : Option Bytes) (phase : FtpPhase) : Prop :=
  phase = if printed.isSome then .listed else .finished

/-- A session keeps to the protocol, ends behind a transfer when it succeeds, and stops at the first
step that fails. -/
structure FtpOrderly (world : FtpWorld) (cli : Cli) (scheme : Text)
    (run : List FtpStep × Except FtpFault (Option Bytes)) : Prop where
  /-- The steps are accepted. -/
  accepted : ∃ last, Machine.run (FtpPhase.next cli scheme) .idle run.1 = some last ∧
    ∀ printed, run.2 = .ok printed → last.Fits printed
  /-- A step that fails is the last. -/
  stops : ∀ {before after : List FtpStep} {step : FtpStep}, run.1 = before ++ step :: after →
    after ≠ [] → (world step).isSome = true

section Phases

variable {Url : Type} {urls : FtpUrls Url} {ranges : RangeHeader} {cli : Cli} {scheme : Text}

/-- The steps of a login lead from a connection to a user who is known. -/
theorem ftpLogin_keeps {text name : Text} {uri : Uri} {phase : FtpPhase} (known : uri.host = some name)
    (login : ∀ user password, phase.next cli scheme (.login user password) = some .loggedIn) :
    Program.Keeps (FtpPhase.next cli scheme) (fun _ last => last = .loggedIn) phase
      (ftpLogin urls cli text uri) := by
  rw [ftpLogin]
  cases cli.authorityOption with
  | some authority =>
    apply Session.keeps_bind (Session.keeps_require fun _ _ => rfl)
    rintro parts _ rfl
    exact Session.keeps_demand (login parts.1 parts.2) fun _ => rfl
  | none =>
    simp only
    rw [if_pos (authority_of_host known)]
    apply Session.keeps_bind (Session.keeps_require fun _ _ => rfl)
    rintro url _ rfl
    apply Session.keeps_bind (Session.keeps_require fun _ _ => rfl)
    rintro password _ rfl
    exact Session.keeps_demand (login _ password) fun _ => rfl

/-- The opening leads to the directory. -/
theorem openSession_keeps : Program.Keeps (FtpPhase.next cli scheme) (fun _ last => last = .placed) .idle
    (openSession urls cli scheme) := by
  apply Session.keeps_bind (Session.keeps_require fun _ _ => rfl)
  rintro text _ rfl
  apply Session.keeps_bind (Session.keeps_require fun _ _ => rfl)
  rintro uri _ rfl
  have name : Program.Keeps (FtpPhase.next cli scheme)
      (fun name last => last = .idle ∧ uri.host = some name) .idle
        (attemptValue uri.host .hostMissing) := Session.keeps_require fun _ known => ⟨rfl, known⟩
  apply Session.keeps_bind name
  rintro name _ ⟨rfl, known⟩
  apply Session.keeps_bind (Session.keeps_demand rfl fun _ => rfl)
  rintro _ _ rfl
  have cwd : ∀ phase : FtpPhase, phase = .loggedIn → Program.Keeps (FtpPhase.next cli scheme)
      (fun _ last => last = .placed) phase (attemptStep (.cwd uri.path) .cwd) := by
    rintro _ rfl
    exact Session.keeps_demand rfl fun _ => rfl
  rw [ftpUpgrade]
  by_cases secure : scheme = "ftps".toList
  · rw [if_pos secure]
    have upgraded : FtpPhase.connected.next cli scheme (.intoSecure name) = some .secured := if_pos secure
    apply Session.keeps_bind (Session.keeps_demand upgraded fun _ => rfl)
    rintro _ _ rfl
    exact Session.keeps_bind (ftpLogin_keeps known fun _ _ => rfl) fun _ => cwd
  · rw [if_neg secure]
    have clear : ∀ user password,
        FtpPhase.connected.next cli scheme (.login user password) = some .loggedIn :=
      fun _ _ => if_neg secure
    have stays : Program.Keeps (FtpPhase.next cli scheme) (fun _ last => last = .connected) .connected
        (pure () : FtpProgram Unit) := Session.keeps_pure rfl
    apply Session.keeps_bind stays
    rintro _ _ rfl
    exact Session.keeps_bind (ftpLogin_keeps known clear) fun _ => cwd

/-- The upload of the file that is asked for. -/
theorem upload_keeps {path : Text} (asked : cli.uploadfileOption = some path) :
    Program.Keeps (FtpPhase.next cli scheme) FtpPhase.Fits .ready (upload path) := by
  have opened : FtpPhase.ready.next cli scheme (.openFile path) = some .opened := if_pos asked
  have measured : FtpPhase.opened.next cli scheme (.metadata path) = some .measured := if_pos asked
  apply Session.keeps_bind (Session.keeps_demand opened fun _ => rfl)
  rintro content _ rfl
  apply Session.keeps_bind (Session.keeps_demand measured fun _ => rfl)
  rintro _ _ rfl
  apply Session.keeps_bind (Session.keeps_require fun _ _ => rfl)
  rintro name _ rfl
  exact Session.keeps_ignore_last rfl rfl

/-- The output of a listing. -/
theorem output_keeps (item : Bytes) :
    Program.Keeps (FtpPhase.next cli scheme) FtpPhase.Fits .listed (output ranges cli item) := by
  have cut : Program.Keeps (FtpPhase.next cli scheme) (fun _ last => last = .listed) .listed
      (cutRanges ranges cli item) := by
    rw [cutRanges]
    split
    · exact Session.keeps_pure rfl
    · apply Session.keeps_bind (Session.keeps_require fun _ _ => rfl)
      rintro list _ rfl
      apply Session.keeps_bind (Session.keeps_require fun _ _ => rfl)
      rintro slices _ rfl
      exact Session.keeps_pure rfl
  apply Session.keeps_bind cut
  rintro bytes _ rfl
  cases asked : cli.filePathOption with
  | none => exact Session.keeps_pure rfl
  | some path =>
    have opened : FtpPhase.listed.next cli scheme (.openOutput path) = some .writing := if_pos asked
    have written : FtpPhase.writing.next cli scheme (.writeAll path bytes) = some .finished :=
      if_pos asked
    apply Session.keeps_bind (Session.keeps_demand opened fun _ => rfl)
    rintro _ _ rfl
    exact Session.keeps_ignore_last written rfl

/-- The one transfer that the options ask for. -/
theorem transfer_keeps : Program.Keeps (FtpPhase.next cli scheme) FtpPhase.Fits .ready
    (transfer ranges cli) := by
  rw [transfer]
  split
  · exact upload_keeps ‹_›
  · rename_i quote absent asked
    have sent : FtpPhase.ready.next cli scheme (.site quote) = some .finished :=
      if_pos ⟨absent, asked⟩
    apply Session.keeps_bind (Session.keeps_demand sent fun _ => rfl)
    rintro _ _ rfl
    exact Session.keeps_pure rfl
  · rename_i absent unasked
    have listed : FtpPhase.ready.next cli scheme .list = some .listed := if_pos ⟨absent, unasked⟩
    apply Session.keeps_bind (Session.keeps_demand listed fun _ => rfl)
    rintro lines _ rfl
    exact output_keeps _

/-- The session keeps to the protocol. -/
theorem ftpRequest_keeps : Program.Keeps (FtpPhase.next cli scheme) FtpPhase.Fits .idle
    (ftpRequest urls ranges cli scheme) := by
  apply Session.keeps_bind openSession_keeps
  rintro _ _ rfl
  apply Session.keeps_bind (Session.keeps_demand rfl fun _ => rfl)
  rintro _ _ rfl
  exact transfer_keeps

/-- A demanded step, for whatever fault. -/
theorem demands_any (step : FtpStep) (fault : FtpFault) :
    Program.Demands (fun _ => True) (Program.demand step fault : FtpProgram step.Payload) :=
  Session.demands_demand trivial

/-- A required value, for whatever fault. -/
theorem demands_value {α : Type} (value : Option α) (fault : FtpFault) :
    Program.Demands (fun _ => True) (Program.require value fault : FtpProgram α) :=
  Session.demands_require trivial

/-- A transfer issues nothing after a step that fails. -/
theorem transfer_halts : Program.Halts (transfer ranges cli) := by
  rw [transfer]
  split
  · apply Session.halts_bind (demands_any _ _)
    intro content
    apply Session.halts_bind (demands_any _ _)
    intro _
    exact Session.halts_bind (demands_value _ _) fun name => Session.halts_ignore_last
  · exact Session.halts_bind (demands_any _ _) fun _ => trivial
  · apply Session.halts_bind (demands_any _ _)
    intro lines
    have cut : Program.Demands (fun _ => True) (cutRanges ranges cli (listing lines)) := by
      rw [cutRanges]
      split
      · trivial
      · exact Session.demands_bind (demands_value _ _) fun list =>
          Session.demands_bind (demands_value _ _) fun slices => trivial
    apply Session.halts_bind cut
    intro bytes
    split
    · trivial
    · exact Session.halts_bind (demands_any _ _) fun _ => Session.halts_ignore_last

/-- The session issues nothing after a step that fails. -/
theorem ftpRequest_halts : Program.Halts (ftpRequest urls ranges cli scheme) := by
  apply Session.halts_bind openSession_demands
  intro _
  exact Session.halts_bind (demands_any _ _) fun _ => transfer_halts

end Phases

/-- Every session keeps to the protocol, whatever the server and the local files do. -/
theorem ftpRequest_orderly {Url : Type} (urls : FtpUrls Url) (ranges : RangeHeader) (world : FtpWorld)
    (cli : Cli) (scheme : Text) :
    FtpOrderly world cli scheme (Program.run world (ftpRequest urls ranges cli scheme)) where
  accepted := ftpRequest_keeps.accepts world
  stops := ftpRequest_halts.succeed world

end Rcurl
