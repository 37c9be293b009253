import Rcurl.Foundation.LossyUtf8
import Rcurl.Http.Message

/-!
# WHOIS lookups

`whois::handler::whois_command`: a server chosen by the last label of the target, one query line, and
the reply read in pieces until the other side closes. Each piece is turned into text as it comes; the
whole text is printed at the end.
-/

namespace Rcurl

open ShellWords (Text)

/-- The servers by their last label, in the order of the source. -/
def whoisServers : List (String × String) :=
  [("com", "whois.verisign-grs.com"), ("net", "whois.verisign-grs.com"),
    ("org", "whois.pir.org"), ("info", "whois.afilias.net"), ("biz", "whois.biz"),
    ("name", "whois.nic.name"), ("mobi", "whois.dotmobiregistry.net"),
    ("online", "whois.nic.online"), ("site", "whois.nic.online"), ("xyz", "whois.nic.xyz"),
    ("tech", "whois.nic.tech"), ("app", "whois.nic.google"), ("io", "whois.nic.io"),
    ("ai", "whois.nic.ai"), ("co", "whois.nic.co"), ("me", "whois.nic.me"),
    ("tv", "whois.nic.tv"), ("gg", "whois.nic.gg"), ("cc", "whois.nic.cc"),
    ("us", "whois.nic.us"), ("uk", "whois.nic.uk"), ("co.uk", "whois.nic.uk"),
    ("org.uk", "whois.nic.uk"), ("de", "whois.denic.de"), ("fr", "whois.nic.fr"),
    ("cn", "whois.cnnic.cn"), ("jp", "whois.jprs.jp"), ("kr", "whois.kr"),
    ("ru", "whois.tld.ru"), ("ca", "whois.ca.fury.ca"), ("au", "whois.auda.org.au"),
    ("br", "whois.registro.br"), ("nl", "whois.domain-registry.nl"), ("es", "whois.nic.es"),
    ("it", "whois.nic.it"), ("ch", "whois.nic.ch"), ("at", "whois.nic.at"),
    ("be", "whois.dns.be"), ("se", "whois.iis.se"), ("no", "whois.norid.no"),
    ("pl", "whois.dns.pl"), ("dk", "whois.dk-hostmaster.dk"), ("fi", "whois.fi"),
    ("gr", "whois.ripe.net"), ("eu", "whois.eu"), ("in", "whois.registry.in"),
    ("sg", "whois.sgnic.sg"), ("my", "whois.mynic.my"), ("th", "whois.thnic.co.th"),
    ("vn", "whois.nic.vn"), ("id", "whois.id"), ("ph", "whois.dot.ph"),
    ("tw", "whois.twnic.net.tw"), ("hk", "whois.hkirc.hk"), ("nz", "whois.srs.net.nz"),
    ("za", "whois.registry.net.za"), ("mx", "whois.mx")]

/-- What the standard library knows about names. -/
structure WhoisNames where
  /-- `str::to_lowercase`. -/
  toLowercase : Text → Text
  /-- The text is an IP address. -/
  isIpAddr : Text → Bool

/-- `determine_whois_server`. -/
def determineWhoisServer (names : WhoisNames) (domain : Text) : Text :=
  let domainLower := names.toLowercase domain
  let tld := ((domainLower.splitOn '.').getLast?).getD []
  match whoisServers.lookup (String.ofList tld) with
  | some server => server.toList
  | none =>
    if names.isIpAddr domainLower then "whois.arin.net".toList else "whois.iana.org".toList

/-- The bytes of one successful read: some, and no more than fit into the buffer. -/
structure WhoisPiece where
  /-- What was put into the buffer. -/
  bytes : Bytes
  /-- They fill a part of the buffer. -/
  fits : bytes ≠ [] ∧ bytes.length ≤ 8192
  deriving DecidableEq, Repr

/-- What a read comes to. -/
inductive WhoisRead where
  /-- The server has sent something. -/
  | piece (piece : WhoisPiece)
  /-- The end of the reply. -/
  | closed
  /-- An error, or nothing within 30 seconds. -/
  | failed
  deriving DecidableEq, Repr

/-- The ways a lookup fails. -/
inductive WhoisError where
  | connect | write | flush | read
  deriving DecidableEq, Repr

/-- The other side of a lookup. -/
structure WhoisWorld where
  /-- A server can be reached within 10 seconds. -/
  connects : Text → Bool
  /-- The query is taken. -/
  writes : Bytes → Bool
  /-- The query leaves the buffer. -/
  flushes : Bool
  /-- The reads, in order; behind them nothing comes. -/
  reads : List WhoisRead

/-- The query line. -/
def whoisQuery (target : Text) : Bytes := Utf8.encode target ++ [13, 10]

/-- The loop that reads the reply. -/
def readResponse : List WhoisRead → Text → Except WhoisError Text
  | .piece piece :: reads, response => readResponse reads (response ++ LossyUtf8.lossy piece.bytes)
  | .closed :: _, response => .ok response
  | .failed :: _, _ => .error .read
  | [], _ => .error .read

/-- `whois_command`: the text it prints. -/
def whoisCommand (names : WhoisNames) (world : WhoisWorld) (target : Text) :
    Except WhoisError Text :=
  if !world.connects (determineWhoisServer names target) then .error .connect
  else if !world.writes (whoisQuery target) then .error .write
  else if !world.flushes then .error .flush
  else readResponse world.reads []

/-- A reply that is read to its end is the texts of its pieces. -/
theorem readResponse_pieces (pieces : List WhoisPiece) : ∀ response : Text,
    readResponse (pieces.map .piece ++ [.closed]) response =
      .ok (response ++ (pieces.map fun piece => LossyUtf8.lossy piece.bytes).flatten) := by
  induction pieces with
  | nil =>
    intro response
    simp [readResponse]
  | cons piece pieces ih =>
    intro response
    rw [List.map_cons, List.cons_append, readResponse, ih, List.map_cons, List.flatten_cons,
      List.append_assoc]

end Rcurl
