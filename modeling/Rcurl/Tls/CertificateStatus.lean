import Rcurl.Foundation.RustText
import Rcurl.Foundation.TruncatedDivision

/-!
# The status of a certificate

`CertificateInfo::to_json_format` counts the whole days that are left, toward zero, and reads the status
off them. So a certificate counts as expired a day late, and is right at every other instant:
`certificate_status_iff`.
-/

namespace Rcurl

open RustText (Text)

/-- `CertificateInfo`. -/
@[ext] structure CertificateInfo where
  /-- Whose certificate it is, as a distinguished name. -/
  subject : Text
  /-- Who signed it, as a distinguished name. -/
  issuer : Text
  /-- The number that the issuer gave it. -/
  serialNumber : Text
  /-- When it begins to be valid, as the parser writes it. -/
  validityNotBefore : Text
  /-- The last instant in which it is. -/
  validityNotAfter : Text
  /-- The further names it is good for, in the order of the extension. -/
  subjectAltNames : List Text
  /-- The size of the key, when it is known. -/
  keySize : Option Nat
  /-- The identifier of what it was signed with. -/
  signatureAlgorithm : Text
  /-- What its own key is for, with parameters. -/
  publicKeyAlgorithm : Text
  deriving DecidableEq, Repr

/-- The status of a certificate. -/
inductive CertificateStatus where
  | expired | expiringSoon | ok
  deriving DecidableEq, Repr

/-- The status as it is written. -/
def CertificateStatus.text : CertificateStatus → Text
  | .expired => "EXPIRED".toList
  | .expiringSoon => "EXPIRING_SOON".toList
  | .ok => "OK".toList

/-- `CertificateInfoJson`. -/
structure CertificateInfoJson where
  /-- The host that the user asked about. -/
  host : Text
  /-- The short name of the issuer. -/
  issuer : Text
  /-- The start of the validity in ISO 8601. -/
  notBefore : Text
  /-- The end of the validity in ISO 8601. -/
  notAfter : Text
  /-- The whole days that are left. -/
  daysLeft : Int
  /-- What the days that are left come to. -/
  status : CertificateStatus
  /-- The certificate, whose fields are flattened into the object. -/
  base : CertificateInfo
  deriving DecidableEq, Repr

/-- What `chrono` reads and writes; instants are nanoseconds. -/
structure Chrono where
  /-- `parse_from_rfc3339`. -/
  parseFromRfc3339 : Text → Option Int
  /-- `parse_from_str` at `%b %d %H:%M:%S %Y %z`. -/
  parseFromStr : Text → Option Int
  /-- `format` at `%Y-%m-%dT%H:%M:%SZ`. -/
  format : Int → Text

/-- The times that `Utc::now` tells during one call. -/
structure Readings where
  /-- While the start of the validity is read. -/
  notBefore : Int
  /-- While its end is read. -/
  notAfter : Int
  /-- When the days are counted. -/
  now : Int

/-- The formats of `parse_date`, one after another; `none` when no one fits. -/
def Chrono.instant (chrono : Chrono) (dateStr : Text) : Option Int :=
  ((chrono.parseFromRfc3339 dateStr).or (chrono.parseFromStr dateStr)).or
    (chrono.parseFromStr (dateStr ++ " +0000".toList))

/-- `parse_date`: a text that is no date counts as the current time. -/
def parseDate (chrono : Chrono) (now : Int) (dateStr : Text) : Int :=
  (chrono.instant dateStr).getD now

/-- What follows the first occurrence of a pattern. -/
def afterPattern (pattern : Text) : Text → Option Text
  | [] => none
  | c :: text =>
    if pattern.isPrefixOf (c :: text) then some ((c :: text).drop pattern.length)
    else afterPattern pattern text

/-- What comes before the first occurrence of a pattern. -/
def beforePattern (pattern : Text) : Text → Text
  | [] => []
  | c :: text => if pattern.isPrefixOf (c :: text) then [] else c :: beforePattern pattern text

/-- `split(pattern).nth(1)`, up to the next comma and trimmed. -/
def issuerPart (pattern issuer : Text) : Option Text :=
  (afterPattern pattern issuer).map fun rest =>
    RustText.trim ((beforePattern pattern rest).takeWhile (· ≠ ','))

/-- `extract_simple_issuer`: the common name, else the organization, else all of it. -/
def extractSimpleIssuer (info : CertificateInfo) : Text :=
  ((issuerPart "CN=".toList info.issuer).or (issuerPart "O=".toList info.issuer)).getD info.issuer

/-- The nanoseconds of a second. -/
def nanosPerSecond : Int := 1000000000

/-- The seconds of a day. -/
def secondsPerDay : Int := 86400

/-- The nanoseconds of a day. -/
def day : Int := secondsPerDay * nanosPerSecond

/-- `TimeDelta::num_days`, which truncates toward zero. -/
def numDays (delta : Int) : Int := (delta.tdiv nanosPerSecond).tdiv secondsPerDay

/-- The status for so many days. -/
def statusOf (daysLeft : Int) : CertificateStatus :=
  if daysLeft < 0 then .expired else if daysLeft < 30 then .expiringSoon else .ok

/-- `to_json_format`. -/
def toJsonFormat (chrono : Chrono) (readings : Readings) (info : CertificateInfo) (host : Text) :
    CertificateInfoJson :=
  let notBefore := parseDate chrono readings.notBefore info.validityNotBefore
  let notAfter := parseDate chrono readings.notAfter info.validityNotAfter
  let daysLeft := numDays (notAfter - readings.now)
  { host
    issuer := extractSimpleIssuer info
    notBefore := chrono.format notBefore
    notAfter := chrono.format notAfter
    daysLeft
    status := statusOf daysLeft
    base := info }

/-- The status is the one that the end of the validity calls for. -/
structure StatusRight (notAfter now : Int) (status : CertificateStatus) : Prop where
  /-- Expired is what has ended. -/
  expired : status = .expired ↔ notAfter < now
  /-- Expiring is what ends within 30 days. -/
  expiringSoon : status = .expiringSoon ↔ now ≤ notAfter ∧ notAfter < now + 30 * day
  /-- The rest is right. -/
  ok : status = .ok ↔ now + 30 * day ≤ notAfter

/-- The days that are left are negative from a whole day on. -/
theorem numDays_neg_iff (delta : Int) : numDays delta < 0 ↔ delta ≤ -day := by
  have days : numDays delta ≤ -1 ↔ delta.tdiv nanosPerSecond ≤ -(1 * secondsPerDay) :=
    TruncatedDivision.tdiv_le_neg_iff (by decide) (by decide)
  have seconds : delta.tdiv nanosPerSecond ≤ -secondsPerDay ↔ delta ≤ -day :=
    TruncatedDivision.tdiv_le_neg_iff (by decide) (by decide)
  rw [Int.one_mul] at days
  rw [← seconds, ← days]
  omega

/-- They are fewer than 30 up to 30 whole days. -/
theorem numDays_lt_iff (delta : Int) : numDays delta < 30 ↔ delta < 30 * day := by
  have days : numDays delta < 30 ↔ delta.tdiv nanosPerSecond < 30 * secondsPerDay :=
    TruncatedDivision.tdiv_lt_iff (by decide) (by decide)
  have seconds : delta.tdiv nanosPerSecond < 30 * secondsPerDay ↔
      delta < 30 * secondsPerDay * nanosPerSecond :=
    TruncatedDivision.tdiv_lt_iff (by decide) (by decide)
  rw [days, seconds, day, Int.mul_assoc]

/-- A status is one of the three, by the instants between which the end of the validity lies. -/
theorem statusOf_cases (notAfter now : Int) :
    (statusOf (numDays (notAfter - now)) = .expired ∧ notAfter ≤ now - day) ∨
    (statusOf (numDays (notAfter - now)) = .expiringSoon ∧ now - day < notAfter ∧
      notAfter < now + 30 * day) ∨
    (statusOf (numDays (notAfter - now)) = .ok ∧ now + 30 * day ≤ notAfter) := by
  have negative := numDays_neg_iff (notAfter - now)
  have few := numDays_lt_iff (notAfter - now)
  have long : 0 < day := by decide
  rw [statusOf]
  by_cases past : numDays (notAfter - now) < 0
  · rw [if_pos past]
    exact .inl ⟨rfl, by omega⟩
  · rw [if_neg past]
    by_cases soon : numDays (notAfter - now) < 30
    · rw [if_pos soon]
      exact .inr (.inl ⟨rfl, by omega, by omega⟩)
    · rw [if_neg soon]
      exact .inr (.inr ⟨rfl, by omega⟩)

/-- The status of every certificate is right exactly when its validity does not end within the last
day. -/
theorem certificate_status_iff (chrono : Chrono) (readings : Readings) (info : CertificateInfo)
    (host : Text) (notAfter : Int) (parsed : chrono.instant info.validityNotAfter = some notAfter) :
    StatusRight notAfter readings.now (toJsonFormat chrono readings info host).status ↔
      ¬ (readings.now - day < notAfter ∧ notAfter < readings.now) := by
  have known : (toJsonFormat chrono readings info host).status =
      statusOf (numDays (notAfter - readings.now)) := by
    rw [toJsonFormat]
    dsimp only
    rw [parseDate, parsed, Option.getD_some]
  have long : 0 < day := by decide
  rw [known]
  rcases statusOf_cases notAfter readings.now with ⟨status, past⟩ | ⟨status, late, soon⟩ | ⟨status, far⟩
  · rw [status]
    refine iff_of_true ⟨?_, ?_, ?_⟩ (by omega)
    · exact iff_of_true rfl (by omega)
    · exact iff_of_false nofun (by omega)
    · exact iff_of_false nofun (by omega)
  · rw [status]
    constructor
    · intro right between
      exact absurd (right.expired.mpr between.2) nofun
    · intro outside
      refine ⟨?_, ?_, ?_⟩
      · exact iff_of_false nofun (by omega)
      · exact iff_of_true rfl (by omega)
      · exact iff_of_false nofun (by omega)
  · rw [status]
    refine iff_of_true ⟨?_, ?_, ?_⟩ (by omega)
    · exact iff_of_false nofun (by omega)
    · exact iff_of_false nofun (by omega)
    · exact iff_of_true rfl (by omega)

/-! ## A certificate that has just expired -/

/-- Dates on 2 January 1970 at midnight. -/
def januaryChrono : Chrono where
  parseFromRfc3339 text := if text = "1970-01-02T00:00:00Z".toList then some day else none
  parseFromStr _ := none
  format _ := "1970-01-02T00:00:00Z".toList

/-- A certificate that ends then. -/
def januaryCertificate : CertificateInfo :=
  { subject := "CN=h".toList, issuer := "O=Org, CN=Root CA".toList, serialNumber := "1".toList,
    validityNotBefore := "1970-01-02T00:00:00Z".toList, validityNotAfter := "1970-01-02T00:00:00Z".toList,
    subjectAltNames := [], keySize := none, signatureAlgorithm := [], publicKeyAlgorithm := [] }

example : extractSimpleIssuer januaryCertificate = "Root CA".toList := by decide

/-- A day before its end. -/
theorem certificate_status_before : StatusRight day 0 (toJsonFormat januaryChrono
    { notBefore := 0, notAfter := 0, now := 0 } januaryCertificate "h".toList).status :=
  (certificate_status_iff januaryChrono { notBefore := 0, notAfter := 0, now := 0 } januaryCertificate
    "h".toList day rfl).mpr (by decide)

/-- A nanosecond after its end it still expires soon. -/
theorem just_expired : ¬ ∀ (readings : Readings) (info : CertificateInfo) (host : Text) (notAfter : Int),
    januaryChrono.instant info.validityNotAfter = some notAfter →
      StatusRight notAfter readings.now (toJsonFormat januaryChrono readings info host).status := by
  intro right
  have status := (right { notBefore := day + 1, notAfter := day + 1, now := day + 1 } januaryCertificate
    "h".toList day rfl).expired.mpr (by decide)
  exact absurd status (by decide)

end Rcurl
