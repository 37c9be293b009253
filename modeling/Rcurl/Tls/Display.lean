import Rcurl.Cli.AppConfig
import Rcurl.Foundation.Lines
import Rcurl.Tls.Info

/-!
# Certificates as they are displayed

`impl Display` for `TlsInfo` and `CertificateInfo`, and what `send_https_request` prints of them. The
fields come from the peer and are written as they are, so a line break in one of them can pass for the next
field. Without line breaks the text gives the certificate back, with one it does not, and a subject with
some can make it that of any other certificate: `printed_certificate_iff`.
-/

namespace Rcurl

open RustText (Text)

/-- `impl Display for TlsInfo`, line by line. -/
def TlsInfo.lines (info : TlsInfo) : List Text :=
  ["TLS Handshake Information:".toList, "  TLS Version: ".toList ++ info.tlsVersion,
    "  Cipher Suite: ".toList ++ info.cipherSuite,
    "  Number of Certificates: ".toList ++ RustText.decimal info.peerCertificates.length]

/-- The lines of the other names, when there are any. -/
def altNameLines (names : List Text) : List Text :=
  if names = [] then []
  else "  Subject Alternative Names:".toList :: names.map ("    - ".toList ++ ·)

/-- The line of the size, when it is known. -/
def keySizeLines : Option Nat → List Text
  | some size => ["  Public Key Size: ".toList ++ RustText.decimal size ++ " bits".toList]
  | none => []

/-- `impl Display for CertificateInfo`, line by line. -/
def CertificateInfo.lines (info : CertificateInfo) : List Text :=
  ["Certificate Information:".toList, "  Subject: ".toList ++ info.subject,
    "  Issuer: ".toList ++ info.issuer, "  Serial Number: ".toList ++ info.serialNumber,
    "  Valid From: ".toList ++ info.validityNotBefore,
    "  Valid To: ".toList ++ info.validityNotAfter] ++
    altNameLines info.subjectAltNames ++ keySizeLines info.keySize ++
      ["  Signature Algorithm: ".toList ++ info.signatureAlgorithm,
        "  Public Key Algorithm: ".toList ++ info.publicKeyAlgorithm]

/-- `impl Display for CertificateInfo`. -/
def CertificateInfo.display (info : CertificateInfo) : Text := Lines.write '\n' info.lines

/-- `impl Display for TlsInfo`. -/
def TlsInfo.display (info : TlsInfo) : Text := Lines.write '\n' info.lines

/-- What `send_https_request` prints of the information, one text for each `println!`. The texts in JSON
are given. -/
def printInfo (cli : Cli) (tlsJson : TlsInfo → Text) (certJson : CertificateInfo → Text)
    (tlsInfo : TlsInfo) (certInfo : Option CertificateInfo) : List Text :=
  (if cli.tlsInfoJson then [tlsJson tlsInfo]
    else if cli.tlsInfo then [tlsInfo.display]
    else []) ++
    if cli.certInfoJson then
      match certInfo with
      | some info => [certJson info]
      | none => ["null".toList]
    else if cli.certInfo then
      match certInfo with
      | some info => [info.display]
      | none => ["No certificate information available".toList]
    else []

/-! ## Reading a certificate back -/

/-- What a line says behind its label. -/
def labelled (label line : Text) : Option Text :=
  if label.isPrefixOf line then some (line.drop label.length) else none

/-- The names behind their heading, and the lines behind them. -/
def readAltNames (lines : List Text) : List Text × List Text :=
  match lines with
  | heading :: rest =>
    if heading = "  Subject Alternative Names:".toList then
      ((rest.takeWhile fun line => (labelled "    - ".toList line).isSome).filterMap
          (labelled "    - ".toList),
        rest.dropWhile fun line => (labelled "    - ".toList line).isSome)
    else ([], lines)
  | [] => ([], [])

/-- The size, when there is one, and the lines behind it. -/
def readKeySize (lines : List Text) : Option Nat × List Text :=
  match lines with
  | line :: rest =>
    match labelled "  Public Key Size: ".toList line with
    | some size => (some (Nat.ofDigitChars 10 (size.takeWhile Char.isDigit) 0), rest)
    | none => (none, lines)
  | [] => (none, [])

/-- A certificate from the lines of its text. -/
def readCertificateLines (lines : List Text) : Option CertificateInfo :=
  match lines with
  | _ :: subject :: issuer :: serialNumber :: notBefore :: notAfter :: rest => do
    let (subjectAltNames, rest) := readAltNames rest
    let (keySize, rest) := readKeySize rest
    match rest with
    | signatureAlgorithm :: publicKeyAlgorithm :: _ =>
      return {
        subject := ← labelled "  Subject: ".toList subject
        issuer := ← labelled "  Issuer: ".toList issuer
        serialNumber := ← labelled "  Serial Number: ".toList serialNumber
        validityNotBefore := ← labelled "  Valid From: ".toList notBefore
        validityNotAfter := ← labelled "  Valid To: ".toList notAfter
        subjectAltNames
        keySize
        signatureAlgorithm := ← labelled "  Signature Algorithm: ".toList signatureAlgorithm
        publicKeyAlgorithm := ← labelled "  Public Key Algorithm: ".toList publicKeyAlgorithm }
    | _ => none
  | _ => none

/-- A certificate from its text. -/
def readCertificate (text : Text) : Option CertificateInfo :=
  readCertificateLines (Lines.read '\n' text)

/-- No field has a line break. -/
structure CertificateInfo.Unbroken (info : CertificateInfo) : Prop where
  /-- The subject stays on its line. -/
  subject : '\n' ∉ info.subject
  /-- The issuer does, too. -/
  issuer : '\n' ∉ info.issuer
  /-- The serial number is one line. -/
  serialNumber : '\n' ∉ info.serialNumber
  /-- The start of the validity is. -/
  validityNotBefore : '\n' ∉ info.validityNotBefore
  /-- So is its end. -/
  validityNotAfter : '\n' ∉ info.validityNotAfter
  /-- Every other name has a line to itself. -/
  subjectAltNames : ∀ name ∈ info.subjectAltNames, '\n' ∉ name
  /-- The algorithm of the signature is one line. -/
  signatureAlgorithm : '\n' ∉ info.signatureAlgorithm
  /-- So is that of the key. -/
  publicKeyAlgorithm : '\n' ∉ info.publicKeyAlgorithm

/-- A labelled line is read behind its label. -/
@[simp] theorem labelled_append (label value : Text) : labelled label (label ++ value) = some value := by
  rw [labelled, if_pos (List.isPrefixOf_iff_prefix.mpr (List.prefix_append label value)),
    List.drop_left]

/-- What is read behind a label is on the line. -/
theorem labelled_eq_some {label line value : Text} :
    labelled label line = some value ↔ line = label ++ value := by
  constructor
  · intro read
    rw [labelled] at read
    split_ifs at read with found
    obtain ⟨rest, rfl⟩ := List.isPrefixOf_iff_prefix.mp found
    rw [List.drop_left] at read
    rw [Option.some.inj read]
  · rintro rfl
    exact labelled_append label value

/-- The size is read back, with the lines behind it. -/
theorem readKeySize_lines (size : Option Nat) {next : Text} {rest : List Text}
    (other : labelled "  Public Key Size: ".toList next = none) :
    readKeySize (keySizeLines size ++ next :: rest) = (size, next :: rest) := by
  cases size with
  | none =>
    rw [keySizeLines, List.nil_append, readKeySize]
    simp only [other]
  | some number =>
    have digits : (RustText.decimal number ++ " bits".toList).takeWhile Char.isDigit =
        RustText.decimal number := by
      rw [List.takeWhile_append_of_pos fun c member => RustText.isDigit_decimal member]
      exact List.append_nil _
    rw [keySizeLines, List.singleton_append, readKeySize, List.append_assoc, labelled_append]
    simp only [digits, RustText.ofDigitChars_decimal]

/-- The other names are read back, with the lines behind them. -/
theorem readAltNames_lines (names : List Text) {next : Text} {rest : List Text}
    (heading : next ≠ "  Subject Alternative Names:".toList)
    (other : labelled "    - ".toList next = none) :
    readAltNames (altNameLines names ++ next :: rest) = (names, next :: rest) := by
  by_cases some : names = []
  · rw [altNameLines, if_pos some, List.nil_append, readAltNames, if_neg heading, some]
  · have named : ∀ line ∈ names.map ("    - ".toList ++ ·),
        (labelled "    - ".toList line).isSome = true := by
      intro line member
      obtain ⟨name, _, rfl⟩ := List.mem_map.mp member
      rw [labelled_append]
      rfl
    have stops : ¬(labelled "    - ".toList next).isSome = true := by
      rw [other]
      exact Bool.false_ne_true
    have front : (next :: rest).takeWhile (fun line => (labelled "    - ".toList line).isSome) = [] :=
      List.takeWhile_cons_of_neg stops
    have back : (next :: rest).dropWhile (fun line => (labelled "    - ".toList line).isSome) =
        next :: rest := List.dropWhile_cons_of_neg stops
    have taken : ((names.map ("    - ".toList ++ ·)).filterMap (labelled "    - ".toList)) = names := by
      rw [List.filterMap_map]
      refine (List.filterMap_congr fun name _ => ?_).trans List.filterMap_some
      exact labelled_append _ name
    rw [altNameLines, if_neg some, List.cons_append, readAltNames, if_pos rfl,
      List.takeWhile_append_of_pos named, List.dropWhile_append_of_pos named, front, back,
      List.append_nil, taken]

/-- The other names and the size are read back together. -/
theorem readMiddle_lines (names : List Text) (size : Option Nat) (algorithm : Text)
    (rest : List Text) :
    let lines := ("  Signature Algorithm: ".toList ++ algorithm) :: rest
    readAltNames (altNameLines names ++ (keySizeLines size ++ lines)) =
        (names, keySizeLines size ++ lines) ∧
      readKeySize (keySizeLines size ++ lines) = (size, lines) := by
  refine ⟨?_, readKeySize_lines size rfl⟩
  cases size with
  | none => exact readAltNames_lines names (by simp) rfl
  | some number => exact readAltNames_lines names (by simp) rfl

/-- The lines of a certificate give it back. -/
theorem readCertificateLines_lines (info : CertificateInfo) (behind : List Text) :
    readCertificateLines (info.lines ++ behind) = some info := by
  obtain ⟨names, size⟩ := readMiddle_lines info.subjectAltNames info.keySize info.signatureAlgorithm
    (("  Public Key Algorithm: ".toList ++ info.publicKeyAlgorithm) :: behind)
  have whole : info.lines ++ behind =
      "Certificate Information:".toList :: ("  Subject: ".toList ++ info.subject) ::
        ("  Issuer: ".toList ++ info.issuer) :: ("  Serial Number: ".toList ++ info.serialNumber) ::
          ("  Valid From: ".toList ++ info.validityNotBefore) ::
            ("  Valid To: ".toList ++ info.validityNotAfter) ::
              (altNameLines info.subjectAltNames ++ (keySizeLines info.keySize ++
                (("  Signature Algorithm: ".toList ++ info.signatureAlgorithm) ::
                  ("  Public Key Algorithm: ".toList ++ info.publicKeyAlgorithm) :: behind))) := by
    simp only [CertificateInfo.lines, List.append_assoc, List.cons_append, List.nil_append]
  rw [whole, readCertificateLines]
  simp only [names, size, labelled_append]
  rfl

/-- A value behind a label has no break that its line does not have. -/
theorem notMem_of_labelled {label line value : Text} (read : labelled label line = some value)
    (free : '\n' ∉ line) : '\n' ∉ value := by
  rw [labelled_eq_some.mp read] at free
  exact fun member => free (List.mem_append_right label member)

/-- The names that are read come from lines, and what is left are lines. -/
theorem readAltNames_from (lines : List Text) :
    (∀ name ∈ (readAltNames lines).1, ∃ line ∈ lines, labelled "    - ".toList line = some name) ∧
      ∀ line ∈ (readAltNames lines).2, line ∈ lines := by
  cases lines with
  | nil => exact ⟨nofun, nofun⟩
  | cons heading rest =>
    rw [readAltNames]
    split_ifs
    · constructor
      · intro name member
        obtain ⟨line, here, read⟩ := List.mem_filterMap.mp member
        exact ⟨line, List.mem_cons_of_mem _ ((List.takeWhile_prefix _).subset here), read⟩
      · intro line member
        exact List.mem_cons_of_mem _ ((List.dropWhile_suffix _).subset member)
    · exact ⟨nofun, fun line member => member⟩

/-- What is left behind the size are lines. -/
theorem readKeySize_from (lines : List Text) : ∀ line ∈ (readKeySize lines).2, line ∈ lines := by
  cases lines with
  | nil => exact nofun
  | cons first rest =>
    rw [readKeySize]
    cases labelled "  Public Key Size: ".toList first with
    | none => exact fun line member => member
    | some size => exact fun line member => List.mem_cons_of_mem first member

/-- What is read from lines without a break is unbroken. -/
theorem unbroken_of_read {lines : List Text} {info : CertificateInfo}
    (free : ∀ line ∈ lines, '\n' ∉ line) (read : readCertificateLines lines = some info) :
    info.Unbroken := by
  unfold readCertificateLines at read
  split at read
  · rename_i heading subject issuer serialNumber notBefore notAfter rest
    obtain ⟨names, left⟩ := readAltNames_from rest
    have behind := readKeySize_from (readAltNames rest).2
    simp only at read
    split at read
    · rename_i signature key more whole
      rw [whole] at behind
      have lines_of : ∀ line ∈ signature :: key :: more, '\n' ∉ line := by
        intro line member
        apply free
        simp only [List.mem_cons]
        simp [left line (behind line member)]
      simp only [bind, Option.bind_eq_some_iff] at read
      obtain ⟨subject_value, read_subject, issuer_value, read_issuer, serial_value, read_serial,
        before_value, read_before, after_value, read_after, signature_value, read_signature,
        key_value, read_key, same⟩ := read
      obtain rfl := Option.some.inj same
      constructor
      · exact notMem_of_labelled read_subject (free _ (by simp))
      · exact notMem_of_labelled read_issuer (free _ (by simp))
      · exact notMem_of_labelled read_serial (free _ (by simp))
      · exact notMem_of_labelled read_before (free _ (by simp))
      · exact notMem_of_labelled read_after (free _ (by simp))
      · intro name member
        obtain ⟨line, here, read_name⟩ := names name member
        exact notMem_of_labelled read_name (free line (by simp [here]))
      · exact notMem_of_labelled read_signature (lines_of _ (by simp))
      · exact notMem_of_labelled read_key (lines_of _ (by simp))
    · contradiction
  · contradiction

/-- A label without a break makes none. -/
theorem notMem_label {label value : Text} (plain : '\n' ∉ label) (free : '\n' ∉ value) :
    '\n' ∉ label ++ value := by
  rw [List.mem_append, not_or]
  exact ⟨plain, free⟩

/-- The lines of the other names have no break, when the names have none. -/
theorem altNameLines_free {names : List Text} (free : ∀ name ∈ names, '\n' ∉ name) :
    ∀ line ∈ altNameLines names, '\n' ∉ line := by
  rw [altNameLines]
  split_ifs
  · exact nofun
  · rw [List.forall_mem_cons, List.forall_mem_map]
    exact ⟨by decide, fun name member => notMem_label (by decide) (free name member)⟩

/-- The line of the size has no break. -/
theorem keySizeLines_free (size : Option Nat) : ∀ line ∈ keySizeLines size, '\n' ∉ line := by
  cases size with
  | none => exact nofun
  | some number =>
    have digits : '\n' ∉ RustText.decimal number := RustText.notMem_decimal rfl number
    rw [keySizeLines, List.forall_mem_singleton]
    exact notMem_label (notMem_label (by decide) digits) (by decide)

/-- The lines of an unbroken certificate have no break. -/
theorem CertificateInfo.Unbroken.lines {info : CertificateInfo} (unbroken : info.Unbroken) :
    ∀ line ∈ info.lines, '\n' ∉ line := by
  simp only [CertificateInfo.lines, List.forall_mem_append, List.forall_mem_cons]
  refine ⟨⟨⟨⟨by decide, ?_, ?_, ?_, ?_, ?_, nofun⟩, ?_⟩, ?_⟩, ?_, ?_, nofun⟩
  · exact notMem_label (by decide) unbroken.subject
  · exact notMem_label (by decide) unbroken.issuer
  · exact notMem_label (by decide) unbroken.serialNumber
  · exact notMem_label (by decide) unbroken.validityNotBefore
  · exact notMem_label (by decide) unbroken.validityNotAfter
  · exact altNameLines_free unbroken.subjectAltNames
  · exact keySizeLines_free info.keySize
  · exact notMem_label (by decide) unbroken.signatureAlgorithm
  · exact notMem_label (by decide) unbroken.publicKeyAlgorithm

/-- A certificate is had back from its text exactly when no field has a line break. -/
theorem readCertificate_iff (info : CertificateInfo) :
    readCertificate info.display = some info ↔ info.Unbroken := by
  constructor
  · exact unbroken_of_read fun line member => Lines.notMem_of_mem_read member
  · intro unbroken
    rw [readCertificate, CertificateInfo.display, Lines.read_write unbroken.lines]
    exact readCertificateLines_lines info [[]]

/-- A certificate whose subject goes on, behind a line break, with all the further lines of another. -/
def CertificateInfo.passingFor (info shown : CertificateInfo) : CertificateInfo :=
  { info with subject := shown.subject ++ (shown.lines.drop 2).flatMap ('\n' :: ·) }

/-- Its text is that of the other, and then its own further lines. -/
theorem display_passingFor (info shown : CertificateInfo) :
    (info.passingFor shown).display =
      shown.display ++ Lines.write '\n' (info.lines.drop 2) := by
  have heading : (info.passingFor shown).lines = ["Certificate Information:".toList] ++
      (("  Subject: ".toList ++ shown.subject) ++ (shown.lines.drop 2).flatMap ('\n' :: ·)) ::
        info.lines.drop 2 := by
    rw [List.append_assoc]
    rfl
  have others : shown.lines = ["Certificate Information:".toList] ++
      ("  Subject: ".toList ++ shown.subject) :: shown.lines.drop 2 := rfl
  rw [CertificateInfo.display, CertificateInfo.display, heading, Lines.write_append,
    Lines.write_goes_on, Lines.write_append, ← List.append_assoc, ← Lines.write_append, ← others]

/-- So the other is read from it. -/
theorem readCertificate_passingFor (info : CertificateInfo) {shown : CertificateInfo}
    (unbroken : shown.Unbroken) : readCertificate (info.passingFor shown).display = some shown := by
  rw [readCertificate, display_passingFor, CertificateInfo.display,
    Lines.read_write_append unbroken.lines]
  exact readCertificateLines_lines shown _

/-- The certificate that `--cert-info` prints, behind whatever else is printed, is had back exactly when
no field has a line break. With line breaks in its subject, any certificate can pass for any other whose
fields have none. -/
theorem printed_certificate_iff (cli : Cli) (tlsJson : TlsInfo → Text)
    (certJson : CertificateInfo → Text) (tlsInfo : TlsInfo) (info : CertificateInfo)
    (asked : cli.certInfo = true) (text : cli.certInfoJson = false) :
    let reading := fun info =>
      (printInfo cli tlsJson certJson tlsInfo (some info)).getLast?.bind readCertificate
    (reading info = some info ↔ info.Unbroken) ∧
      ∀ shown : CertificateInfo, shown.Unbroken → reading (info.passingFor shown) = some shown := by
  intro reading
  have last (info : CertificateInfo) : reading info = readCertificate info.display := by
    simp only [reading, printInfo, text, asked]
    exact congrArg (·.bind readCertificate) List.getLast?_concat
  rw [last]
  refine ⟨readCertificate_iff info, fun shown unbroken => ?_⟩
  rw [last]
  exact readCertificate_passingFor info unbroken

/-- A certificate of `a`, issued by `c`. -/
def issuedByC : CertificateInfo where
  subject := "CN=a".toList
  issuer := "CN=c".toList
  serialNumber := "1".toList
  validityNotBefore := []
  validityNotAfter := []
  subjectAltNames := []
  keySize := none
  signatureAlgorithm := []
  publicKeyAlgorithm := []

/-- It is had back, and a certificate of `a` that says it is issued by `b` passes for it. -/
theorem printed_certificate_issued :
    let reading := fun info => (printInfo { certInfo := true } (fun _ => []) (fun _ => [])
      { tlsVersion := [], cipherSuite := [], peerCertificates := [] }
      (some info)).getLast?.bind readCertificate
    reading issuedByC = some issuedByC ∧
      reading ({ issuedByC with issuer := "CN=b".toList }.passingFor issuedByC) = some issuedByC := by
  have unbroken : issuedByC.Unbroken := by
    constructor <;> decide
  have read (info : CertificateInfo) :=
    printed_certificate_iff { certInfo := true } (fun _ => []) (fun _ => [])
      { tlsVersion := [], cipherSuite := [], peerCertificates := [] } info rfl rfl
  exact ⟨(read issuedByC).1.mpr unbroken, (read _).2 issuedByC unbroken⟩

end Rcurl
