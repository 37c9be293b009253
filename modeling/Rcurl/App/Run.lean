import Rcurl.Cli.AppConfig

/-!
# Choosing the handler of a command line

`app::run::execute_request`: a quick command goes to its own handler with its positional
arguments, any other command line by the scheme of its URL. The handler is a value here, so that
two command lines can be compared by what they would do.
-/

namespace Rcurl

open ShellWords (Text)

/-- The handler a command line is dispatched to, with the arguments it is called with. The record
itself, which every handler also receives, is not repeated. -/
inductive Handler where
  /-- `ping_command`. -/
  | pingCommand (target : Text)
  /-- `disk_size_command`. -/
  | diskSizeCommand (target : Text)
  /-- `telnet_command`. -/
  | telnetCommand (host : Text) (port : UInt16)
  /-- `dns_command`. -/
  | dnsCommand (domain : Text)
  /-- `whois_command`. -/
  | whoisCommand (target : Text)
  /-- `port_kill_command`. -/
  | portKillCommand (port : UInt16)
  /-- `port_find_command`. -/
  | portFindCommand (port : UInt16)
  /-- `port_list_command`. -/
  | portListCommand
  /-- `http_request_with_redirects`. -/
  | httpRequestWithRedirects
  /-- `ftp_request` with the scheme. -/
  | ftpRequest (scheme : Text)
  /-- An error before any handler: the URL does not parse, or has no scheme known here. -/
  | failed
  deriving DecidableEq, Repr

/-- The handler of a quick command. -/
def QuickCommand.handler : QuickCommand → Handler
  | .ping target => .pingCommand target
  | .disk target => .diskSizeCommand target
  | .telnet host number => .telnetCommand host number
  | .ns domain => .dnsCommand domain
  | .whois target => .whoisCommand target
  | .port (some number) true => .portKillCommand number
  | .port (some number) false => .portFindCommand number
  | .port none _ => .portListCommand

/-- `execute_request`. `parseScheme` is `hyper::Uri`'s parser followed by `scheme`: `none` when
the text is no URI, `some none` when the URI has no scheme. -/
def executeRequest (parseScheme : Text → Option (Option Text)) (cli : Cli) : Handler :=
  match cli.quickCmd with
  | some quickCmd => quickCmd.handler
  | none =>
    match parseScheme (cli.url.getD []) with
    | some (some scheme) =>
      if scheme = "http".toList ∨ scheme = "https".toList then .httpRequestWithRedirects
      else if scheme = "ftp".toList ∨ scheme = "ftps".toList ∨ scheme = "sftp".toList then
        .ftpRequest scheme
      else .failed
    | _ => .failed

end Rcurl
