import Rcurl.Cli.AppConfig

/-!
# Parsing words into the command line record

What clap's derived parser does with the attributes of `Cli` and `QuickCommand`, over words
already split. A flag is a word of its own; a value option takes the word after it, whatever
that word is; any other word is the next positional argument. A single-valued option or flag
given twice is refused, `-F` and `-H` collect, `-v` counts and saturates. The first word that
names a subcommand hands the rest of the line to it, where only the global `-o` and the
subcommand's own arguments are known. After `--` every word is positional.
-/

namespace Rcurl

open ShellWords (Text)

/-- The options that take a value. -/
inductive ValueArg where
  | methodOption | bodyOption | formOption | headers | certificatePathOption | authorityOption
  | userAgentOption | cookieOption | referOption | filePathOption | uploadfileOption
  | quoteOption | rangeOption
  deriving DecidableEq, Repr

/-- The options that take none. -/
inductive FlagArg where
  | skipCertificateValidate | headerOption | verbosity | http2 | http2PriorKnowledge | noproxy
  | time | tlsInfo | certInfo | tlsInfoJson | certInfoJson
  deriving DecidableEq, Repr

/-- The spellings of every value option, short before long. -/
def valueSpellings : List (Text × ValueArg) :=
  [("-X".toList, .methodOption), ("--request".toList, .methodOption),
    ("-d".toList, .bodyOption), ("--data".toList, .bodyOption),
    ("-F".toList, .formOption), ("--form".toList, .formOption),
    ("-H".toList, .headers), ("--header".toList, .headers),
    ("-c".toList, .certificatePathOption),
    ("--certificate-path-option".toList, .certificatePathOption),
    ("-u".toList, .authorityOption), ("--user".toList, .authorityOption),
    ("-A".toList, .userAgentOption), ("--user-agent".toList, .userAgentOption),
    ("-b".toList, .cookieOption), ("--cookie".toList, .cookieOption),
    ("-e".toList, .referOption), ("--referer".toList, .referOption),
    ("-o".toList, .filePathOption), ("--output".toList, .filePathOption),
    ("-T".toList, .uploadfileOption), ("--upload-file".toList, .uploadfileOption),
    ("-Q".toList, .quoteOption), ("--quote".toList, .quoteOption),
    ("-r".toList, .rangeOption), ("--range".toList, .rangeOption)]

/-- The spellings of every flag. -/
def flagSpellings : List (Text × FlagArg) :=
  [("-k".toList, .skipCertificateValidate), ("--insecure".toList, .skipCertificateValidate),
    ("-I".toList, .headerOption), ("--head".toList, .headerOption),
    ("-v".toList, .verbosity), ("--verbose".toList, .verbosity),
    ("--http2".toList, .http2), ("--http2-prior-knowledge".toList, .http2PriorKnowledge),
    ("--noproxy".toList, .noproxy), ("--time".toList, .time),
    ("--tls-info".toList, .tlsInfo), ("--cert-info".toList, .certInfo),
    ("--tls-info-json".toList, .tlsInfoJson), ("--cert-info-json".toList, .certInfoJson)]

/-- The subcommands. -/
inductive Subcommand where
  | ping | disk | telnet | ns | whois | port
  deriving DecidableEq, Repr

/-- The subcommand names and their aliases. -/
def subcommandSpellings : List (Text × Subcommand) :=
  [("ping".toList, .ping), ("p".toList, .ping), ("disk".toList, .disk), ("d".toList, .disk),
    ("telnet".toList, .telnet), ("t".toList, .telnet), ("ns".toList, .ns),
    ("whois".toList, .whois), ("w".toList, .whois), ("port".toList, .port), ("l".toList, .port)]

/-- What a word means where an argument may start. -/
inductive Role where
  /-- The name of a subcommand. -/
  | subcommand (name : Subcommand)
  /-- `--`: every later word is positional. -/
  | escape
  /-- An option whose value is the next word. -/
  | value (arg : ValueArg)
  /-- It stands alone. -/
  | flag (arg : FlagArg)
  /-- `help`, or a dashed word that no option spells. -/
  | refused
  /-- It does not begin with a dash, and is the URL. -/
  | positional
  deriving DecidableEq, Repr

/-- A word that clap reads as an option: a dash and at least one more character. -/
def isDashed (word : Text) : Bool := word.head? == some '-' && word != ['-']

/-- The role of a word on the main command line. -/
def roleOf (word : Text) : Role :=
  match subcommandSpellings.lookup word with
  | some name => .subcommand name
  | none =>
    if word = "help".toList then .refused
    else if word = "--".toList then .escape
    else match valueSpellings.lookup word with
      | some arg => .value arg
      | none => match flagSpellings.lookup word with
        | some arg => .flag arg
        | none => if isDashed word then .refused else .positional

/-- A single-valued argument is stored once; a second occurrence is an error. -/
def once {α : Type} (current : Option α) (updated : Cli) : Option Cli :=
  if current.isSome then none else some updated

/-- A flag is raised once; a second occurrence is an error. -/
def raise (current : Bool) (updated : Cli) : Option Cli :=
  if current then none else some updated

/-- Store the value of an option. -/
def ValueArg.store (arg : ValueArg) (value : Text) (cli : Cli) : Option Cli :=
  match arg with
  | .methodOption => once cli.methodOption { cli with methodOption := some value }
  | .bodyOption => once cli.bodyOption { cli with bodyOption := some value }
  | .formOption => some { cli with formOption := cli.formOption ++ [value] }
  | .headers => some { cli with headers := cli.headers ++ [value] }
  | .certificatePathOption =>
    once cli.certificatePathOption { cli with certificatePathOption := some value }
  | .authorityOption => once cli.authorityOption { cli with authorityOption := some value }
  | .userAgentOption => once cli.userAgentOption { cli with userAgentOption := some value }
  | .cookieOption => once cli.cookieOption { cli with cookieOption := some value }
  | .referOption => once cli.referOption { cli with referOption := some value }
  | .filePathOption => once cli.filePathOption { cli with filePathOption := some value }
  | .uploadfileOption => once cli.uploadfileOption { cli with uploadfileOption := some value }
  | .quoteOption => once cli.quoteOption { cli with quoteOption := some value }
  | .rangeOption => once cli.rangeOption { cli with rangeOption := some value }

/-- `ArgAction::Count` on a `u8` saturates. -/
def saturatingIncrement (count : UInt8) : UInt8 := if count = 255 then 255 else count + 1

/-- Raise a flag. -/
def FlagArg.store (arg : FlagArg) (cli : Cli) : Option Cli :=
  match arg with
  | .skipCertificateValidate =>
    raise cli.skipCertificateValidate { cli with skipCertificateValidate := true }
  | .headerOption => raise cli.headerOption { cli with headerOption := true }
  | .verbosity => some { cli with verbosity := saturatingIncrement cli.verbosity }
  | .http2 => raise cli.http2 { cli with http2 := true }
  | .http2PriorKnowledge => raise cli.http2PriorKnowledge { cli with http2PriorKnowledge := true }
  | .noproxy => raise cli.noproxy { cli with noproxy := true }
  | .time => raise cli.time { cli with time := true }
  | .tlsInfo => raise cli.tlsInfo { cli with tlsInfo := true }
  | .certInfo => raise cli.certInfo { cli with certInfo := true }
  | .tlsInfoJson => raise cli.tlsInfoJson { cli with tlsInfoJson := true }
  | .certInfoJson => raise cli.certInfoJson { cli with certInfoJson := true }

/-- The one positional argument of the main command line. -/
def storeUrl (word : Text) (cli : Cli) : Option Cli :=
  once cli.url { cli with url := some word }

/-- At least one decimal digit and nothing else. -/
def parseDigits (text : Text) : Option Nat :=
  if text ≠ [] ∧ text.all Char.isDigit then some (Nat.ofDigitChars 10 text 0) else none

/-- A number in the range of `u16`. -/
def narrowPort (number : Nat) : Option UInt16 :=
  if number < 65536 then some (UInt16.ofNat number) else none

/-- A `u16` value: decimal digits with an optional sign, read wide and then narrowed. -/
def parsePort (word : Text) : Option UInt16 :=
  match word with
  | '+' :: text => (parseDigits text).bind narrowPort
  | '-' :: text => (parseDigits text).bind fun number => if number = 0 then some 0 else none
  | text => (parseDigits text).bind narrowPort

/-- What a subcommand has collected from its words. -/
structure SubMatches where
  /-- Positional words in order. -/
  positionals : List Text := []
  /-- `--kill` of `port`. -/
  kill : Bool := false
  /-- The global `-o`, when given after the subcommand. -/
  output : Option Text := none
  deriving DecidableEq, Repr

/-- How many positional words a subcommand takes. -/
def Subcommand.arity : Subcommand → Nat
  | .telnet => 2
  | .ping | .disk | .ns | .whois | .port => 1

/-- Another positional word, refused beyond the arity. -/
def SubMatches.push (name : Subcommand) (word : Text) (found : SubMatches) : Option SubMatches :=
  if found.positionals.length < name.arity then
    some { found with positionals := found.positionals ++ [word] }
  else none

/-- The words after `--` in a subcommand. -/
def trailSubcommand (name : Subcommand) : List Text → SubMatches → Option SubMatches
  | [], found => some found
  | word :: rest, found => (found.push name word).bind (trailSubcommand name rest)

/-- The words of a subcommand. -/
def scanSubcommand (name : Subcommand) : List Text → SubMatches → Option SubMatches
  | [], found => some found
  | word :: rest, found =>
    if word = "--".toList then trailSubcommand name rest found
    else if word = "-o".toList ∨ word = "--output".toList then
      match rest with
      | [] => none
      | value :: rest =>
        if found.output.isSome then none
        else scanSubcommand name rest { found with output := some value }
    else if word = "--kill".toList ∧ name = .port then
      if found.kill then none else scanSubcommand name rest { found with kill := true }
    else if isDashed word then none
    else (found.push name word).bind (scanSubcommand name rest)

/-- The quick command a subcommand builds: a missing target is an error, except that `disk`
defaults to the current directory and `port` to listing. -/
def Subcommand.build (name : Subcommand) (found : SubMatches) : Option QuickCommand :=
  match name, found.positionals with
  | .ping, [target] => some (.ping target)
  | .disk, [] => some (.disk ['.'])
  | .disk, [target] => some (.disk target)
  | .telnet, [host, text] => (parsePort text).map (.telnet host)
  | .ns, [domain] => some (.ns domain)
  | .whois, [target] => some (.whois target)
  | .port, [] => some (.port none found.kill)
  | .port, [text] => (parsePort text).map fun number => .port (some number) found.kill
  | _, _ => none

/-- A subcommand takes the rest of the line; its `-o` counts as the command line's. -/
def parseSubcommand (name : Subcommand) (words : List Text) (cli : Cli) : Option Cli :=
  (scanSubcommand name words {}).bind fun found =>
    (name.build found).map fun quickCmd =>
      { cli with quickCmd := some quickCmd, filePathOption := found.output.or cli.filePathOption }

/-- The words after `--`. -/
def trailWords : List Text → Cli → Option Cli
  | [], cli => some cli
  | word :: rest, cli => (storeUrl word cli).bind (trailWords rest)

/-- The words of the main command line. -/
def parseWords : List Text → Cli → Option Cli
  | [], cli => some cli
  | word :: rest, cli =>
    match roleOf word with
    | .subcommand name => parseSubcommand name rest cli
    | .escape => trailWords rest cli
    | .value arg =>
      match rest with
      | [] => none
      | value :: rest => (arg.store value cli).bind (parseWords rest)
    | .flag arg => (arg.store cli).bind (parseWords rest)
    | .refused => none
    | .positional => (storeUrl word cli).bind (parseWords rest)

/-- `Cli::try_parse_from`: the first word is the program's name. -/
def Cli.tryParseFrom (args : List Text) : Option Cli := parseWords args.tail {}

example : Cli.tryParseFrom (["rcurl", "-X", "POST", "-v", "http://h/"].map String.toList) =
    some { url := some "http://h/".toList, methodOption := some "POST".toList, verbosity := 1 } := by
  decide

end Rcurl
