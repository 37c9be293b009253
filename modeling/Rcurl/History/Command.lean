import Rcurl.Cli.Parser
import Rcurl.Foundation.RustText

/-!
# Writing a command line for the history

`history::command::command_from_cli` turns a `Cli` back into one line of text. A quick command
writes its positional arguments bare. A request writes the method and the URL bare, and every
other value between single quotes with its own quotes escaped. `requestWords` is the word list
the request line stands for; `pushOptions_spells` connects the two for everything but the
method and the URL.
-/

namespace Rcurl

open ShellWords

/-- `format!(" {flag} {value}")`: the value as it is. -/
def pushRaw (flag : Text) : Option Text → Text
  | none => []
  | some value => ' ' :: (flag ++ ' ' :: value)

/-- `format!(" {flag} '{}'", value.replace('\'', "'\\''"))`. -/
def pushQuoted (flag : Text) : Option Text → Text
  | none => []
  | some value => ' ' :: (flag ++ ' ' :: quote value)

/-- The quoted push, once per entry. -/
def pushEach (flag : Text) (values : List Text) : Text :=
  values.flatMap fun value => pushQuoted flag (some value)

/-- A flag, when it is set. -/
def pushFlag (flag : Text) (present : Bool) : Text := if present then ' ' :: flag else []

/-- A flag, once per level. -/
def pushLevels (flag : Text) (levels : Nat) : Text :=
  (List.replicate levels (' ' :: flag)).flatten

/-- The URL after a space, as it is. -/
def pushUrl : Option Text → Text
  | none => []
  | some url => ' ' :: url

/-- The decimal digits of a port. -/
def portText (port : UInt16) : Text := RustText.decimal port.toNat

/-- The line of a quick command after the program's name. -/
def pushQuick : QuickCommand → Text
  | .ping target => " p ".toList ++ target
  | .disk target => " d ".toList ++ target
  | .telnet host port => " t ".toList ++ (host ++ ' ' :: portText port)
  | .ns domain => " ns ".toList ++ domain
  | .whois target => " w ".toList ++ target
  | .port (some number) true => " port ".toList ++ (portText number ++ " --kill".toList)
  | .port (some number) false => " port ".toList ++ portText number
  | .port none _ => " port".toList

/-- The options of a request line after the method, in the order of the source. -/
def pushOptions (cli : Cli) : Text :=
  pushQuoted "-d".toList cli.bodyOption ++
  (pushEach "-F".toList cli.formOption ++
  (pushEach "-H".toList cli.headers ++
  (pushQuoted "-c".toList cli.certificatePathOption ++
  (pushQuoted "-u".toList cli.authorityOption ++
  (pushQuoted "-A".toList cli.userAgentOption ++
  (pushQuoted "-b".toList cli.cookieOption ++
  (pushQuoted "-e".toList cli.referOption ++
  (pushQuoted "-o".toList cli.filePathOption ++
  (pushQuoted "-T".toList cli.uploadfileOption ++
  (pushQuoted "-Q".toList cli.quoteOption ++
  (pushFlag "-k".toList cli.skipCertificateValidate ++
  (pushFlag "-I".toList cli.headerOption ++
  (pushQuoted "-r".toList cli.rangeOption ++
  (pushLevels "-v".toList cli.verbosity.toNat ++
  (pushFlag "--http2".toList cli.http2 ++
  (pushFlag "--http2-prior-knowledge".toList cli.http2PriorKnowledge ++
  (pushFlag "--noproxy".toList cli.noproxy ++
  (pushFlag "--time".toList cli.time ++
  (pushFlag "--tls-info".toList cli.tlsInfo ++
  (pushFlag "--cert-info".toList cli.certInfo ++
  (pushFlag "--tls-info-json".toList cli.tlsInfoJson ++
  pushFlag "--cert-info-json".toList cli.certInfoJson)))))))))))))))))))))

/-- `command_from_cli`. -/
def commandFromCli (cli : Cli) : Text :=
  "rcurl".toList ++
    match cli.quickCmd with
    | some quickCmd => pushQuick quickCmd
    | none => pushRaw "-X".toList cli.methodOption ++ (pushOptions cli ++ pushUrl cli.url)

/-- The line of a request: its method, its other options and its URL. -/
theorem commandFromCli_request {cli : Cli} (request : cli.quickCmd = none) :
    commandFromCli cli = "rcurl".toList ++
      (pushRaw "-X".toList cli.methodOption ++ (pushOptions cli ++ pushUrl cli.url)) := by
  unfold commandFromCli
  rw [request]

/-- The line of a subcommand. -/
theorem commandFromCli_quick {cli : Cli} {quickCmd : QuickCommand}
    (quick : cli.quickCmd = some quickCmd) :
    commandFromCli cli = "rcurl".toList ++ pushQuick quickCmd := by
  unfold commandFromCli
  rw [quick]

/-! ## The words a request line stands for -/

/-- A flag and its value, when there is one. -/
def valueWords (flag : Text) : Option Text → List Text
  | none => []
  | some value => [flag, value]

/-- A flag and its value, once per entry. -/
def eachWords (flag : Text) (values : List Text) : List Text :=
  values.flatMap fun value => [flag, value]

/-- A flag, when it is set. -/
def flagWords (flag : Text) (present : Bool) : List Text := if present then [flag] else []

/-- The words of the options after the method. -/
def optionWords (cli : Cli) : List Text :=
  valueWords "-d".toList cli.bodyOption ++
  (eachWords "-F".toList cli.formOption ++
  (eachWords "-H".toList cli.headers ++
  (valueWords "-c".toList cli.certificatePathOption ++
  (valueWords "-u".toList cli.authorityOption ++
  (valueWords "-A".toList cli.userAgentOption ++
  (valueWords "-b".toList cli.cookieOption ++
  (valueWords "-e".toList cli.referOption ++
  (valueWords "-o".toList cli.filePathOption ++
  (valueWords "-T".toList cli.uploadfileOption ++
  (valueWords "-Q".toList cli.quoteOption ++
  (flagWords "-k".toList cli.skipCertificateValidate ++
  (flagWords "-I".toList cli.headerOption ++
  (valueWords "-r".toList cli.rangeOption ++
  (List.replicate cli.verbosity.toNat "-v".toList ++
  (flagWords "--http2".toList cli.http2 ++
  (flagWords "--http2-prior-knowledge".toList cli.http2PriorKnowledge ++
  (flagWords "--noproxy".toList cli.noproxy ++
  (flagWords "--time".toList cli.time ++
  (flagWords "--tls-info".toList cli.tlsInfo ++
  (flagWords "--cert-info".toList cli.certInfo ++
  (flagWords "--tls-info-json".toList cli.tlsInfoJson ++
  flagWords "--cert-info-json".toList cli.certInfoJson)))))))))))))))))))))

/-- The words of a request line after the program's name. -/
def requestWords (cli : Cli) : List Text :=
  valueWords "-X".toList cli.methodOption ++ (optionWords cli ++ cli.url.toList)

section Spelling

variable {flag : Text} (plain : Plain flag)
include plain

/-- A flag and a quoted value are two spelled words. -/
theorem pushQuoted_spells (value : Option Text) :
    Spells (pushQuoted flag value) (valueWords flag value) := by
  cases value with
  | none => exact .nil
  | some value =>
    have written := Spells.plain plain (.quoted value .nil)
    rwa [List.append_nil] at written

/-- Every entry is two spelled words. -/
theorem pushEach_spells (values : List Text) :
    Spells (pushEach flag values) (eachWords flag values) := by
  induction values with
  | nil => exact .nil
  | cons value values ih => exact (pushQuoted_spells plain (some value)).append ih

/-- A flag is one spelled word. -/
theorem pushFlag_spells (present : Bool) :
    Spells (pushFlag flag present) (flagWords flag present) := by
  cases present with
  | false => exact .nil
  | true =>
    have written := Spells.plain plain .nil
    rwa [List.append_nil] at written

/-- A repeated flag is as many spelled words. -/
theorem pushLevels_spells (levels : Nat) :
    Spells (pushLevels flag levels) (List.replicate levels flag) := by
  induction levels with
  | zero => exact .nil
  | succ levels ih =>
    rw [pushLevels, List.replicate_succ, List.flatten_cons, ← pushLevels, List.replicate_succ]
    exact (pushFlag_spells plain true).append ih

end Spelling

/-- Everything written between the method and the URL spells its words, whatever the values. -/
theorem pushOptions_spells (cli : Cli) : Spells (pushOptions cli) (optionWords cli) := by
  unfold pushOptions optionWords
  refine (pushQuoted_spells (by decide) _).append ?_
  refine (pushEach_spells (by decide) _).append ?_
  refine (pushEach_spells (by decide) _).append ?_
  refine (pushQuoted_spells (by decide) _).append ?_
  refine (pushQuoted_spells (by decide) _).append ?_
  refine (pushQuoted_spells (by decide) _).append ?_
  refine (pushQuoted_spells (by decide) _).append ?_
  refine (pushQuoted_spells (by decide) _).append ?_
  refine (pushQuoted_spells (by decide) _).append ?_
  refine (pushQuoted_spells (by decide) _).append ?_
  refine (pushQuoted_spells (by decide) _).append ?_
  refine (pushFlag_spells (by decide) _).append ?_
  refine (pushFlag_spells (by decide) _).append ?_
  refine (pushQuoted_spells (by decide) _).append ?_
  refine (pushLevels_spells (by decide) _).append ?_
  refine (pushFlag_spells (by decide) _).append ?_
  refine (pushFlag_spells (by decide) _).append ?_
  refine (pushFlag_spells (by decide) _).append ?_
  refine (pushFlag_spells (by decide) _).append ?_
  refine (pushFlag_spells (by decide) _).append ?_
  refine (pushFlag_spells (by decide) _).append ?_
  refine (pushFlag_spells (by decide) _).append ?_
  exact pushFlag_spells (by decide) _

end Rcurl
