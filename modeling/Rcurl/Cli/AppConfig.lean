import Rcurl.Foundation.ShellWords

/-!
# The command line record

`cli::app_config`: the parsed command line `Cli` and the quick commands it may carry. Texts are
lists of characters. Every field of the source is kept; the numeric ones keep their width.
-/

namespace Rcurl

open ShellWords (Text)

/-- `QuickCommand`: the subcommands, each with its positional arguments. -/
inductive QuickCommand where
  /-- Ping a host to check connectivity. -/
  | ping (target : Text)
  /-- Check disk size for a path. -/
  | disk (target : Text)
  /-- Telnet to a host and port. -/
  | telnet (host : Text) (port : UInt16)
  /-- DNS lookup. -/
  | ns (domain : Text)
  /-- WHOIS lookup. -/
  | whois (target : Text)
  /-- List the listening ports, or find or kill the process behind one. -/
  | port (port : Option UInt16) (kill : Bool)
  deriving DecidableEq, Repr

/-- `Cli`, with the defaults of `Cli::default()`. -/
structure Cli where
  /-- The request URL. -/
  url : Option Text := none
  /-- `-X`, the request method. -/
  methodOption : Option Text := none
  /-- `-d`, the POST data. -/
  bodyOption : Option Text := none
  /-- `-F`, the multipart entries in order. -/
  formOption : List Text := []
  /-- `-H`, the header entries in order. -/
  headers : List Text := []
  /-- `-c`, the certificate path. -/
  certificatePathOption : Option Text := none
  /-- `-u`, user and password. -/
  authorityOption : Option Text := none
  /-- `-A`, the user agent. -/
  userAgentOption : Option Text := none
  /-- `-b`, the cookie. -/
  cookieOption : Option Text := none
  /-- `-e`, the referrer. -/
  referOption : Option Text := none
  /-- `-o`, the output file; the one global option. -/
  filePathOption : Option Text := none
  /-- `-T`, the file to upload. -/
  uploadfileOption : Option Text := none
  /-- `-Q`, the command to send before a transfer. -/
  quoteOption : Option Text := none
  /-- `-k`, allow insecure connections. -/
  skipCertificateValidate : Bool := false
  /-- `-I`, show document info only. -/
  headerOption : Bool := false
  /-- `-r`, the byte range. -/
  rangeOption : Option Text := none
  /-- `-v`, counted: the log level and nothing else. -/
  verbosity : UInt8 := 0
  /-- `--http2`. -/
  http2 : Bool := false
  /-- `--http2-prior-knowledge`. -/
  http2PriorKnowledge : Bool := false
  /-- `--noproxy`. -/
  noproxy : Bool := false
  /-- `--time`. -/
  time : Bool := false
  /-- `--tls-info`. -/
  tlsInfo : Bool := false
  /-- `--cert-info`. -/
  certInfo : Bool := false
  /-- `--tls-info-json`. -/
  tlsInfoJson : Bool := false
  /-- `--cert-info-json`. -/
  certInfoJson : Bool := false
  /-- The quick command, when one is given. -/
  quickCmd : Option QuickCommand := none
  deriving DecidableEq, Repr

end Rcurl
