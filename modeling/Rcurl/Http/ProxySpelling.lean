import Rcurl.Http.Proxy

/-!
# The spellings of a proxy

A proxy is given as `http://host:port` or as `host:port`. The second is only recognized when it is no
URL, but a name that starts with a letter, followed by a colon, starts a URL: `proxy_spellings_iff`.
The grammar of URLs comes in as an assumption on the `url` crate, `WhatwgUrls`.
-/

namespace Rcurl

open ShellWords (Text)

/-- The characters of a scheme. -/
def isSchemeChar (c : Char) : Bool := c.isAlphanum || c == '+' || c == '-' || c == '.'

/-- A scheme: a letter, then letters, digits, and three signs. -/
def isScheme (text : Text) : Bool := text.head?.any Char.isAlpha && text.all isSchemeChar

/-- The scheme a text starts with, in lower case. -/
def leadingScheme (text : Text) : Option Text :=
  (RustText.splitTwo ':' text).bind fun parts =>
    if isScheme parts.1 then some (parts.1.map Char.toLower) else none

/-- The characters of a host name in lower case. -/
def isHostChar (c : Char) : Bool := c.isLower || c.isDigit || c == '-' || c == '.'

/-- A name made of these characters. -/
def HostLetters (name : Text) : Prop := ∀ c ∈ name, isHostChar c = true

/-- The first character is a letter. -/
def startsWithLetter (name : Text) : Bool := name.head?.any Char.isAlpha

/-- The URL of a plain proxy. -/
def httpProxy (name : Text) (port : UInt16) : Text := "http://".toList ++ hostPort name port

/-- What the `url` crate does by the grammar of URLs. -/
structure WhatwgUrls {Url : Type} (urls : UrlOps Url) : Prop where
  /-- A URL starts with its scheme. Control characters and blanks are left out, which are stripped. -/
  schemes : ∀ text url, (∀ c ∈ text, 33 ≤ c.toNat) → urls.parse text = some url →
    leadingScheme text = some (urls.scheme url)
  /-- A scheme and a number are a URL. -/
  opaquePath : ∀ name port, HostLetters name → isScheme name = true →
    ∃ url, urls.parse (hostPort name port) = some url
  /-- If that has a host, the number is an address of four bytes. -/
  numeric : ∀ name port url host, HostLetters name → isScheme name = true →
    urls.parse (hostPort name port) = some url → urls.hostStr url = some host →
      ∀ c ∈ host, c.isDigit = true ∨ c = '.'
  /-- The port behind a host is kept, unless it is the default. -/
  keepsPort : ∀ name port url, HostLetters name → port ≠ 80 →
    urls.parse (httpProxy name port) = some url → urls.port url = some port

section Spellings

variable {Url : Type} {urls : UrlOps Url} {name : Text} {port : UInt16}

/-- The address of a proxy that a variable gives. -/
def proxyAddress (urls : UrlOps Url) (value : Text) : Option Text :=
  getProxyFromEnv urls (fun _ => some value) []

/-- Both spellings of an address lead to the address, whatever variable holds them. -/
def SpellingsAgree (urls : UrlOps Url) (scheme name : Text) (port : UInt16) : Prop :=
  ∀ vars, firstVar vars (proxyVars scheme) = some (hostPort name port) ∨
      firstVar vars (proxyVars scheme) = some (httpProxy name port) →
    getProxyFromEnv urls vars scheme = some (hostPort name port)

/-- The parser of hosts keeps a name as it is. -/
def KeepsHost (urls : UrlOps Url) (name : Text) (port : UInt16) : Prop :=
  ∃ url, urls.parse (httpProxy name port) = some url ∧ urls.hostStr url = some name

/-- The result depends on the first variable alone. -/
theorem getProxyFromEnv_set {vars : Vars} {scheme value : Text}
    (set : firstVar vars (proxyVars scheme) = some value) :
    getProxyFromEnv urls vars scheme = proxyAddress urls value := by
  rw [proxyAddress, getProxyFromEnv, set]
  rfl

/-- A value that is no URL is taken for the address. -/
theorem proxyAddress_unparsed {value : Text} (fails : urls.parse value = none) :
    proxyAddress urls value = some value := by
  have set : firstVar (fun _ => some value) (proxyVars []) = some value := rfl
  rw [proxyAddress, getProxyFromEnv, set, Option.bind_some, fails]

/-- Of a URL for a web proxy the host and the port are taken. -/
theorem proxyAddress_host {value address : Text} {url : Url} (parsed : urls.parse value = some url)
    (found : proxyAddress urls value = some address) :
    ∃ host port, urls.hostStr url = some host ∧ address = hostPort host port := by
  have set : firstVar (fun _ => some value) (proxyVars []) = some value := rfl
  rw [proxyAddress, getProxyFromEnv, set, Option.bind_some, parsed] at found
  dsimp only at found
  by_cases plain : urls.scheme url = "http".toList
  · rw [if_pos plain, Option.map_eq_some_iff] at found
    obtain ⟨host, given, same⟩ := found
    exact ⟨host, _, given, same.symm⟩
  · rw [if_neg plain] at found
    by_cases secure : urls.scheme url = "https".toList
    · rw [if_pos secure, Option.map_eq_some_iff] at found
      obtain ⟨host, given, same⟩ := found
      exact ⟨host, _, given, same.symm⟩
    · rw [if_neg secure] at found
      cases found

/-- No colon is in a host name. -/
theorem HostLetters.colon (letters : HostLetters name) : ':' ∉ name := by
  intro member
  exact absurd (letters ':' member) (by decide)

/-- A host name is the part before the colon. -/
theorem HostLetters.split (letters : HostLetters name) :
    RustText.splitTwo ':' (hostPort name port) = some (name, RustText.decimal port.toNat) :=
  RustText.splitTwo_first letters.colon

/-- The characters of a host name are visible, and may stand in a scheme. -/
theorem isHostChar_visible {c : Char} (host : isHostChar c = true) :
    33 ≤ c.toNat ∧ isSchemeChar c = true := by
  rw [isHostChar, Bool.or_eq_true, Bool.or_eq_true, Bool.or_eq_true, beq_iff_eq, beq_iff_eq] at host
  rcases host with ((lower | digit) | rfl) | rfl
  · have both : (decide ('a'.val ≤ c.val) && decide (c.val ≤ 'z'.val)) = true := lower
    rw [Bool.and_eq_true, decide_eq_true_eq] at both
    have range : 'a'.toNat ≤ c.toNat := UInt32.le_iff_toNat_le.mp both.1
    have word : c.isAlphanum = true := by
      have parts : c.isAlphanum = ((c.isUpper || c.isLower) || c.isDigit) := rfl
      rw [parts, lower, Bool.or_true, Bool.true_or]
    refine ⟨Nat.le_trans (by decide) range, ?_⟩
    rw [isSchemeChar, word]
    rfl
  · have range : '0'.toNat ≤ c.toNat := (Char.isDigit_iff_toNat.mp digit).1
    have word : c.isAlphanum = true := by
      have parts : c.isAlphanum = (c.isAlpha || c.isDigit) := rfl
      rw [parts, digit, Bool.or_true]
    refine ⟨Nat.le_trans (by decide) range, ?_⟩
    rw [isSchemeChar, word]
    rfl
  · decide
  · decide

/-- A host name is a scheme exactly when it starts with a letter. -/
theorem HostLetters.isScheme (letters : HostLetters name) : isScheme name = startsWithLetter name := by
  have all : name.all isSchemeChar = true :=
    List.all_eq_true.mpr fun c member => (isHostChar_visible (letters c member)).2
  rw [Rcurl.isScheme, all, Bool.and_true]
  rfl

/-- A letter is no digit. -/
theorem isAlpha_not_isDigit {c : Char} (letter : c.isAlpha = true) (digit : c.isDigit = true) :
    False := by
  have range := Char.isDigit_iff_toNat.mp digit
  have bound : c.toNat < 'A'.toNat := Nat.lt_of_le_of_lt range.2 (by decide)
  have cases : (decide ('A'.val ≤ c.val ∧ c.val ≤ 'Z'.val) ||
      (decide ('a'.val ≤ c.val) && decide (c.val ≤ 'z'.val))) = true := letter
  rw [Bool.or_eq_true, Bool.and_eq_true, decide_eq_true_eq, decide_eq_true_eq] at cases
  rcases cases with upper | lower
  · have least : 'A'.toNat ≤ c.toNat := UInt32.le_iff_toNat_le.mp upper.1
    omega
  · have least : 'a'.toNat ≤ c.toNat := UInt32.le_iff_toNat_le.mp lower.1
    have order : 'A'.toNat ≤ 'a'.toNat := by decide
    omega

/-- A digit is a character of a host name. -/
theorem isHostChar_digit {c : Char} (digit : c.isDigit = true) : isHostChar c = true := by
  rw [isHostChar, digit, Bool.or_true]
  rfl

/-- An address is visible. -/
theorem HostLetters.visible (letters : HostLetters name) : ∀ c ∈ hostPort name port, 33 ≤ c.toNat := by
  intro c member
  rcases List.mem_append.mp member with front | back
  · exact (isHostChar_visible (letters c front)).1
  · rcases List.mem_cons.mp back with rfl | digit
    · decide
    · exact (isHostChar_visible (isHostChar_digit (RustText.isDigit_decimal digit))).1

/-- The URL of a plain proxy is visible. -/
theorem HostLetters.visible_url (letters : HostLetters name) :
    ∀ c ∈ httpProxy name port, 33 ≤ c.toNat := by
  intro c member
  rcases List.mem_append.mp member with front | back
  · exact (show ∀ c ∈ "http://".toList, 33 ≤ c.toNat by decide) c front
  · exact letters.visible c back

/-- The URL of a plain proxy has a first colon. -/
theorem httpProxy_split : RustText.splitTwo ':' (httpProxy name port) =
    some ("http".toList, '/' :: '/' :: hostPort name port) :=
  RustText.splitTwo_first (show ':' ∉ "http".toList by decide)

/-- It starts with its scheme. -/
theorem leadingScheme_httpProxy : leadingScheme (httpProxy name port) = some "http".toList := by
  rw [leadingScheme, httpProxy_split, Option.bind_some]
  rfl

/-- The address alone is recognized exactly when it does not start with a letter. -/
theorem proxyAddress_bare (whatwg : WhatwgUrls urls) (letters : HostLetters name) :
    proxyAddress urls (hostPort name port) = some (hostPort name port) ↔
      startsWithLetter name = false := by
  cases first : startsWithLetter name with
  | false =>
    refine iff_of_true (proxyAddress_unparsed ?_) rfl
    cases parsed : urls.parse (hostPort name port) with
    | none => rfl
    | some url =>
      have leading := whatwg.schemes _ _ letters.visible parsed
      rw [leadingScheme, letters.split, Option.bind_some, if_neg] at leading
      · cases leading
      · rw [letters.isScheme, first]
        exact Bool.noConfusion
  | true =>
    refine iff_of_false (fun found => ?_) Bool.noConfusion
    have scheme : isScheme name = true := letters.isScheme.trans first
    obtain ⟨url, parsed⟩ := whatwg.opaquePath name port letters scheme
    obtain ⟨host, other, given, same⟩ := proxyAddress_host parsed found
    have numeric := whatwg.numeric name port url host letters scheme parsed given
    have colon : ':' ∉ host := by
      intro member
      exact absurd (numeric ':' member) (by decide)
    have split : RustText.splitTwo ':' (hostPort host other) = _ := RustText.splitTwo_first colon
    rw [← same, letters.split, Option.some.injEq, Prod.mk.injEq] at split
    rw [split.1] at first
    cases host with
    | nil => cases first
    | cons c rest =>
      have letter : c.isAlpha = true := first
      rcases numeric c List.mem_cons_self with digit | rfl
      · exact isAlpha_not_isDigit letter digit
      · exact absurd letter (by decide)

/-- The two spellings differ. -/
theorem httpProxy_ne : httpProxy name port ≠ hostPort name port := by
  intro same
  have whole : httpProxy name port = "http://".toList ++ hostPort name port := rfl
  have longer : (hostPort name port).length < (httpProxy name port).length := by
    rw [whole, List.length_append]
    exact Nat.lt_add_of_pos_left (by decide)
  rw [same] at longer
  exact Nat.lt_irrefl _ longer

/-- The URL leads to the address exactly when the parser keeps the host. -/
theorem proxyAddress_url (whatwg : WhatwgUrls urls) (letters : HostLetters name)
    (explicit : port ≠ 80) :
    proxyAddress urls (httpProxy name port) = some (hostPort name port) ↔ KeepsHost urls name port := by
  cases parsed : urls.parse (httpProxy name port) with
  | none =>
    refine iff_of_false (fun found => ?_) ?_
    · have same := Option.some.inj ((proxyAddress_unparsed parsed).symm.trans found)
      exact httpProxy_ne same
    · rintro ⟨url, found, _⟩
      rw [parsed] at found
      cases found
  | some url =>
    have kept := whatwg.keepsPort name port url letters explicit parsed
    have leading := whatwg.schemes _ _ letters.visible_url parsed
    rw [leadingScheme_httpProxy, Option.some.injEq] at leading
    have address : proxyAddress urls (httpProxy name port) =
        (urls.hostStr url).map fun host => hostPort host port := by
      have set : firstVar (fun _ => some (httpProxy name port)) (proxyVars []) =
          some (httpProxy name port) := rfl
      rw [proxyAddress, getProxyFromEnv, set, Option.bind_some, parsed]
      dsimp only
      rw [if_pos leading.symm, kept]
      rfl
    rw [address, Option.map_eq_some_iff]
    constructor
    · rintro ⟨host, given, same⟩
      have name_eq : host = name := List.append_cancel_right same
      exact ⟨url, parsed, given.trans (congrArg some name_eq)⟩
    · rintro ⟨other, again, given⟩
      rw [parsed, Option.some.injEq] at again
      rw [again]
      exact ⟨name, given, rfl⟩

/-- When every variable is set, the first one is. -/
theorem firstVar_all (scheme value : Text) :
    firstVar (fun _ => some value) (proxyVars scheme) = some value := by
  rw [proxyVars]
  split
  · rfl
  · rfl

end Spellings

/-- The two spellings of a proxy agree exactly when the host does not start with a letter and the
parser of URLs keeps it as it is. -/
theorem proxy_spellings_iff {Url : Type} (urls : UrlOps Url) (scheme name : Text) (port : UInt16)
    (whatwg : WhatwgUrls urls) (letters : HostLetters name) (explicit : port ≠ 80) :
    SpellingsAgree urls scheme name port ↔
      startsWithLetter name = false ∧ KeepsHost urls name port := by
  have address : proxyAddress urls (hostPort name port) = some (hostPort name port) ↔
      startsWithLetter name = false := proxyAddress_bare whatwg letters
  rw [← address, ← proxyAddress_url whatwg letters explicit]
  constructor
  · intro agree
    constructor
    · have set := firstVar_all scheme (hostPort name port)
      rw [← getProxyFromEnv_set set]
      exact agree _ (.inl set)
    · have set := firstVar_all scheme (httpProxy name port)
      rw [← getProxyFromEnv_set set]
      exact agree _ (.inr set)
  · rintro ⟨bare, full⟩ vars (set | set)
    · exact (getProxyFromEnv_set set).trans bare
    · exact (getProxyFromEnv_set set).trans full

/-! ## URLs with a scheme, a host and a port -/

/-- The scheme, the host and the port of a URL. -/
structure SchemeUrl where
  /-- Lower case, as the parser gives it. -/
  scheme : Text
  /-- Missing in a URL without an authority. -/
  host : Option Text
  /-- Missing when none is written. -/
  port : Option UInt16
  deriving DecidableEq, Repr

/-- The host and the port behind two slashes. -/
def hostAndPort : Text → Option Text × Option UInt16
  | '/' :: '/' :: authority =>
    match RustText.splitTwo ':' authority with
    | some (host, port) => (some host, (RustText.parseUnsigned 16 port).map UInt16.ofNat)
    | none => (some authority, none)
  | _ => (none, none)

/-- URLs of any scheme, of which only the scheme, the host and the port are looked at. -/
def schemeUrls : UrlOps SchemeUrl where
  parse text := (RustText.splitTwo ':' text).bind fun parts =>
    if isScheme parts.1 then
      some { scheme := parts.1.map Char.toLower, host := (hostAndPort parts.2).1,
             port := (hostAndPort parts.2).2 }
    else none
  join _ _ := none
  toUri _ := none
  scheme url := url.scheme
  hostStr url := url.host
  port url := url.port

/-- A URL behind its scheme. -/
theorem schemeUrls_parse {text front back : Text}
    (split : RustText.splitTwo ':' text = some (front, back)) (scheme : isScheme front = true) :
    schemeUrls.parse text = some { scheme := front.map Char.toLower, host := (hostAndPort back).1,
                                   port := (hostAndPort back).2 } := by
  have parsed : schemeUrls.parse text = (RustText.splitTwo ':' text).bind _ := rfl
  rw [parsed, split, Option.bind_some, if_pos scheme]

/-- A number has no host. -/
theorem hostAndPort_decimal (number : Nat) : hostAndPort (RustText.decimal number) = (none, none) := by
  unfold hostAndPort
  split
  · next slash =>
    have member : '/' ∈ RustText.decimal number := by
      rw [slash]
      exact List.mem_cons_self
    exact absurd (RustText.isDigit_decimal member) (by decide)
  · rfl

/-- Behind two slashes are the host and the port. -/
theorem hostAndPort_address {name : Text} (letters : HostLetters name) (port : UInt16) :
    hostAndPort ('/' :: '/' :: hostPort name port) = (some name, some port) := by
  rw [hostAndPort, letters.split]
  dsimp only
  rw [RustText.parseUnsigned_decimal port.toNat_lt, Option.map_some, UInt16.ofNat_toNat]

/-- These URLs follow the grammar. -/
theorem schemeUrls_whatwg : WhatwgUrls schemeUrls where
  schemes text url visible parsed := by
    obtain ⟨parts, split, built⟩ := Option.bind_eq_some_iff.mp parsed
    rw [leadingScheme, split, Option.bind_some]
    split_ifs at built ⊢
    rw [← Option.some.inj built]
    rfl
  opaquePath name port letters scheme := ⟨_, schemeUrls_parse letters.split scheme⟩
  numeric name port url host letters scheme parsed given := by
    rw [schemeUrls_parse letters.split scheme, Option.some.injEq, hostAndPort_decimal] at parsed
    rw [← parsed] at given
    cases given
  keepsPort name port url letters explicit parsed := by
    rw [schemeUrls_parse httpProxy_split (by decide), hostAndPort_address letters,
      Option.some.injEq] at parsed
    rw [← parsed]
    rfl

/-- A numeric address is recognized in both spellings. -/
theorem proxy_spellings_numeric :
    SpellingsAgree schemeUrls "https".toList "127.0.0.1".toList 7890 :=
  (proxy_spellings_iff schemeUrls "https".toList "127.0.0.1".toList 7890 schemeUrls_whatwg
    (by unfold HostLetters; decide) (by decide)).mpr
    ⟨by decide, { scheme := "http".toList, host := some "127.0.0.1".toList, port := some 7890 },
      by decide, rfl⟩

/-- A proxy with a name is ignored without its scheme. -/
theorem named_proxy_ignored : ¬ ∀ {Url : Type} (urls : UrlOps Url) (scheme name : Text) (port : UInt16),
    WhatwgUrls urls → HostLetters name → port ≠ 80 → SpellingsAgree urls scheme name port := by
  intro agree
  have letters : HostLetters "localhost".toList := by unfold HostLetters; decide
  have found := agree schemeUrls "http".toList "localhost".toList 8080 schemeUrls_whatwg letters
    (by decide) (fun _ => some (hostPort "localhost".toList 8080)) (.inl rfl)
  have ignored : getProxyFromEnv schemeUrls (fun _ => some (hostPort "localhost".toList 8080))
      "http".toList = none := by decide
  rw [ignored] at found
  cases found

end Rcurl
