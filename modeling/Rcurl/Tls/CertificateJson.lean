import Rcurl.Foundation.MultiMap
import Rcurl.Tls.CertificateStatus

/-!
# The JSON object of a certificate

`--cert-info-json` prints the fields that `to_json_format` adds, then those of the certificate itself
as members of the same object. Both have an `issuer`, so the object names it twice: no object is free
of repetitions, `certificateJson_never`, and a reader that takes one of the two values loses the other,
`decode_iff`.
-/

namespace Rcurl

open RustText (Text)

/-- The values of the members. -/
inductive JsonValue where
  | null
  | number (value : Int)
  | string (value : Text)
  | strings (values : List Text)
  deriving DecidableEq, Repr

/-- An object, member by member. -/
abbrev JsonObject := List (Text × JsonValue)

/-- `Option<usize>` as a value. -/
def JsonValue.ofSize : Option Nat → JsonValue
  | none => .null
  | some size => .number size

/-- The members that the derived `Serialize` of `CertificateInfo` writes. -/
def CertificateInfo.members (info : CertificateInfo) : JsonObject :=
  [("subject".toList, .string info.subject),
    ("issuer".toList, .string info.issuer),
    ("serial_number".toList, .string info.serialNumber),
    ("validity_not_before".toList, .string info.validityNotBefore),
    ("validity_not_after".toList, .string info.validityNotAfter),
    ("subject_alt_names".toList, .strings info.subjectAltNames),
    ("key_size".toList, .ofSize info.keySize),
    ("signature_algorithm".toList, .string info.signatureAlgorithm),
    ("public_key_algorithm".toList, .string info.publicKeyAlgorithm)]

/-- The members that the derived `Serialize` of `CertificateInfoJson` writes, its base flattened. -/
def CertificateInfoJson.members (json : CertificateInfoJson) : JsonObject :=
  [("host".toList, .string json.host),
    ("issuer".toList, .string json.issuer),
    ("not_before".toList, .string json.notBefore),
    ("not_after".toList, .string json.notAfter),
    ("days_left".toList, .number json.daysLeft),
    ("status".toList, .string json.status.text)] ++ json.base.members

/-- How a reader of JSON chooses among the values that an object has for one name. -/
structure JsonReader where
  /-- The chosen value, unless the values are refused. -/
  pick : List JsonValue → Option JsonValue
  /-- A single value is chosen. -/
  single : ∀ value, pick [value] = some value
  /-- Only a value that is there is chosen. -/
  member : ∀ values value, pick values = some value → value ∈ values

/-- A reader that takes the last value of a name. -/
def lastReader : JsonReader where
  pick := List.getLast?
  single _ := rfl
  member _ _ := List.mem_of_getLast?

/-- A reader that refuses a name with several values. -/
def strictReader : JsonReader where
  pick values := match values with
    | [value] => some value
    | _ => none
  single _ := rfl
  member values value := by
    cases values with
    | nil => exact nofun
    | cons first rest =>
      cases rest with
      | nil => simp [eq_comm]
      | cons second rest => exact nofun

/-- The value of a name, when there is one. -/
def JsonReader.get (reader : JsonReader) (object : JsonObject) (name : Text) : Option JsonValue :=
  reader.pick (MultiMap.getAll name object)

/-- A value as a text. -/
def JsonValue.asText : JsonValue → Option Text
  | .string value => some value
  | .null | .number _ | .strings _ => none

/-- A value as a number. -/
def JsonValue.asNumber : JsonValue → Option Int
  | .number value => some value
  | .null | .string _ | .strings _ => none

/-- A value as a list of texts. -/
def JsonValue.asTexts : JsonValue → Option (List Text)
  | .strings values => some values
  | .null | .number _ | .string _ => none

/-- A value as a size or none. -/
def JsonValue.asSize : JsonValue → Option (Option Nat)
  | .null => some none
  | .number value => if 0 ≤ value then some (some value.toNat) else none
  | .string _ | .strings _ => none

/-- A text as a status. -/
def CertificateStatus.ofText (text : Text) : Option CertificateStatus :=
  [CertificateStatus.expired, .expiringSoon, .ok].find? (·.text = text)

/-- The certificate in an object. -/
def decodeInfo (reader : JsonReader) (object : JsonObject) : Option CertificateInfo := do
  let text name := (reader.get object name).bind JsonValue.asText
  return {
    subject := ← text "subject".toList
    issuer := ← text "issuer".toList
    serialNumber := ← text "serial_number".toList
    validityNotBefore := ← text "validity_not_before".toList
    validityNotAfter := ← text "validity_not_after".toList
    subjectAltNames := ← (reader.get object "subject_alt_names".toList).bind JsonValue.asTexts
    keySize := ← (reader.get object "key_size".toList).bind JsonValue.asSize
    signatureAlgorithm := ← text "signature_algorithm".toList
    publicKeyAlgorithm := ← text "public_key_algorithm".toList }

/-- All that was encoded in an object. -/
def decodeCertificate (reader : JsonReader) (object : JsonObject) : Option CertificateInfoJson := do
  let text name := (reader.get object name).bind JsonValue.asText
  return {
    host := ← text "host".toList
    issuer := ← text "issuer".toList
    notBefore := ← text "not_before".toList
    notAfter := ← text "not_after".toList
    daysLeft := ← (reader.get object "days_left".toList).bind JsonValue.asNumber
    status := ← (text "status".toList).bind CertificateStatus.ofText
    base := ← decodeInfo reader object }

/-- The object names each member once, and what it encodes is read back. -/
structure ReadsBack (reader : JsonReader) (json : CertificateInfoJson) : Prop where
  /-- No member is named twice. -/
  distinct : MultiMap.Single json.members
  /-- Every field is recovered. -/
  recovered : decodeCertificate reader json.members = some json

/-- The issuer is named twice. -/
theorem getAll_issuer (json : CertificateInfoJson) :
    MultiMap.getAll "issuer".toList json.members =
      [.string json.issuer, .string json.base.issuer] := rfl

section Reading

variable {reader : JsonReader} {json : CertificateInfoJson}

/-- A name with one value has that value. -/
theorem JsonReader.get_once {object : JsonObject} {name : Text} {value : JsonValue}
    (once : MultiMap.getAll name object = [value]) : reader.get object name = some value := by
  rw [JsonReader.get, once, reader.single]

/-- A size is read back. -/
@[simp] theorem asSize_ofSize (size : Option Nat) : (JsonValue.ofSize size).asSize = some size := by
  cases size with
  | none => rfl
  | some size =>
    rw [JsonValue.ofSize, JsonValue.asSize, if_pos (Int.natCast_nonneg size), Int.toNat_natCast]

/-- A status is read back. -/
@[simp] theorem ofText_text (status : CertificateStatus) :
    CertificateStatus.ofText status.text = some status := by
  cases status <;> decide

/-- The certificate is read back but for its issuer, which is the one that the reader chooses. -/
theorem decodeInfo_eq : decodeInfo reader json.members =
    ((reader.get json.members "issuer".toList).bind JsonValue.asText).map fun issuer =>
      { json.base with issuer } := by
  have subject : reader.get json.members "subject".toList = some (.string json.base.subject) :=
    JsonReader.get_once rfl
  have serial : reader.get json.members "serial_number".toList =
      some (.string json.base.serialNumber) := JsonReader.get_once rfl
  have notBefore : reader.get json.members "validity_not_before".toList =
      some (.string json.base.validityNotBefore) := JsonReader.get_once rfl
  have notAfter : reader.get json.members "validity_not_after".toList =
      some (.string json.base.validityNotAfter) := JsonReader.get_once rfl
  have names : reader.get json.members "subject_alt_names".toList =
      some (.strings json.base.subjectAltNames) := JsonReader.get_once rfl
  have size : reader.get json.members "key_size".toList = some (.ofSize json.base.keySize) :=
    JsonReader.get_once rfl
  have signature : reader.get json.members "signature_algorithm".toList =
      some (.string json.base.signatureAlgorithm) := JsonReader.get_once rfl
  have key : reader.get json.members "public_key_algorithm".toList =
      some (.string json.base.publicKeyAlgorithm) := JsonReader.get_once rfl
  rw [decodeInfo]
  simp only [subject, serial, notBefore, notAfter, names, size, signature, key]
  cases (reader.get json.members "issuer".toList).bind JsonValue.asText with
  | none => rfl
  | some issuer => simp [JsonValue.asText, JsonValue.asTexts]

/-- Everything is read back but for the two issuers: both are the one that the reader chooses. -/
theorem decodeCertificate_eq : decodeCertificate reader json.members =
    ((reader.get json.members "issuer".toList).bind JsonValue.asText).map fun issuer =>
      { json with issuer, base := { json.base with issuer } } := by
  have host : reader.get json.members "host".toList = some (.string json.host) :=
    JsonReader.get_once rfl
  have notBefore : reader.get json.members "not_before".toList = some (.string json.notBefore) :=
    JsonReader.get_once rfl
  have notAfter : reader.get json.members "not_after".toList = some (.string json.notAfter) :=
    JsonReader.get_once rfl
  have days : reader.get json.members "days_left".toList = some (.number json.daysLeft) :=
    JsonReader.get_once rfl
  have status : reader.get json.members "status".toList = some (.string json.status.text) :=
    JsonReader.get_once rfl
  rw [decodeCertificate, decodeInfo_eq]
  simp only [host, notBefore, notAfter, days, status]
  cases (reader.get json.members "issuer".toList).bind JsonValue.asText with
  | none => rfl
  | some issuer => simp [JsonValue.asText, JsonValue.asNumber]

/-- What a reader chooses for the issuer is one of the two. -/
theorem get_issuer {value : JsonValue}
    (chosen : reader.get json.members "issuer".toList = some value) :
    value = .string json.issuer ∨ value = .string json.base.issuer := by
  have member := reader.member _ _ chosen
  rw [getAll_issuer] at member
  simpa using member

/-- One issuer in both places is right exactly when it is both issuers. -/
theorem same_issuer_iff (issuer : Text) :
    { json with issuer, base := { json.base with issuer } } = json ↔
      issuer = json.issuer ∧ issuer = json.base.issuer := by
  constructor
  · intro same
    exact ⟨congrArg CertificateInfoJson.issuer same,
      congrArg (fun found : CertificateInfoJson => found.base.issuer) same⟩
  · rintro ⟨short, full⟩
    have base : { json.base with issuer } = json.base := by rw [full]
    rw [base, short]

/-- The fields are recovered exactly when the two issuers agree and the reader takes a name twice. -/
theorem decode_iff : decodeCertificate reader json.members = some json ↔
    json.issuer = json.base.issuer ∧ reader.get json.members "issuer".toList ≠ none := by
  rw [decodeCertificate_eq]
  cases chosen : reader.get json.members "issuer".toList with
  | none => simp
  | some value =>
    rcases get_issuer chosen with short | full
    · rw [short, Option.bind_some, JsonValue.asText, Option.map_some, Option.some.injEq,
        same_issuer_iff]
      simp
    · rw [full, Option.bind_some, JsonValue.asText, Option.map_some, Option.some.injEq,
        same_issuer_iff]
      simp [eq_comm]

/-- The names of an object are never distinct. -/
theorem not_single (json : CertificateInfoJson) : ¬ MultiMap.Single json.members := by
  intro distinct
  have names : json.members.map Prod.fst = ["host".toList, "issuer".toList, "not_before".toList,
      "not_after".toList, "days_left".toList, "status".toList, "subject".toList, "issuer".toList,
      "serial_number".toList, "validity_not_before".toList, "validity_not_after".toList,
      "subject_alt_names".toList, "key_size".toList, "signature_algorithm".toList,
      "public_key_algorithm".toList] := rfl
  rw [MultiMap.Single, names] at distinct
  exact absurd distinct (by decide)

end Reading

/-- The object of no certificate can be read back: no host, date or reader gives it distinct names. -/
theorem certificateJson_never (chrono : Chrono) (readings : Readings) (info : CertificateInfo)
    (host : Text) (reader : JsonReader) : ¬ ReadsBack reader (toJsonFormat chrono readings info host) :=
  fun back => not_single _ back.distinct

/-- A reader that takes the last value of a name recovers a certificate exactly when its short issuer is
its issuer. -/
theorem last_recovers_iff (chrono : Chrono) (readings : Readings) (info : CertificateInfo)
    (host : Text) :
    let json := toJsonFormat chrono readings info host
    decodeCertificate lastReader json.members = some json ↔
      extractSimpleIssuer info = info.issuer := by
  intro json
  rw [decode_iff]
  have taken : lastReader.get json.members "issuer".toList = some (.string json.base.issuer) := rfl
  rw [taken]
  exact and_iff_left (Option.some_ne_none _)

/-- A reader that refuses names with two values recovers none. -/
theorem strict_refuses (json : CertificateInfoJson) :
    decodeCertificate strictReader json.members = none := by
  have refused : strictReader.get json.members "issuer".toList = none := rfl
  rw [decodeCertificate_eq, refused]
  rfl

/-! ## A short issuer -/

/-- The object of a certificate whose issuer has an organization and a common name. -/
def januaryJson : CertificateInfoJson :=
  toJsonFormat januaryChrono { notBefore := 0, notAfter := 0, now := 0 } januaryCertificate "h".toList

/-- A reader takes the full issuer for the short one. -/
theorem issuer_lost : ¬ ∀ (chrono : Chrono) (readings : Readings) (info : CertificateInfo)
    (host : Text) (reader : JsonReader), ReadsBack reader (toJsonFormat chrono readings info host) := by
  intro back
  have recovered := (back januaryChrono { notBefore := 0, notAfter := 0, now := 0 } januaryCertificate
    "h".toList lastReader).recovered
  have lost : decodeCertificate lastReader januaryJson.members ≠ some januaryJson := by decide
  exact lost recovered

end Rcurl
