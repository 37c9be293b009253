import Mathlib.Data.List.TakeWhile
import Rcurl.Foundation.Occurrence
import Rcurl.Tls.CertificateStatus

/-!
# The short name of an issuer

`extract_simple_issuer` searches the rendered name of the issuer for `CN=`, then for `O=`, and cuts
what follows at a comma. The rendering escapes nothing, so a comma in a value cuts it short, and `CN=`
inside another attribute is taken for the common name: `shortIssuer_iff`.
-/

namespace Rcurl

open RustText (Text)
open Occurrence (FirstAt Between)

/-- An attribute of a distinguished name. -/
structure Attribute where
  /-- Its type. -/
  kind : Text
  /-- What stands behind the equals sign. -/
  value : Text
  deriving DecidableEq, Repr

/-- What a type is searched by. -/
def spelling (kind : Text) : Text := kind ++ ['=']

/-- An attribute as it is rendered. -/
def Attribute.text (entry : Attribute) : Text := spelling entry.kind ++ entry.value

/-- A distinguished name as it is rendered, with nothing escaped. -/
def renderIssuer (entries : List Attribute) : Text :=
  List.intercalate ", ".toList (entries.map Attribute.text)

/-- The trimmed value of the first attribute of a type. -/
def firstValue (kind : Text) (entries : List Attribute) : Option Text :=
  (entries.find? fun entry => entry.kind = kind).map fun entry =>
    RustText.trim entry.value

/-- The common name, else the organization. -/
def issuerName (entries : List Attribute) : Option Text :=
  (firstValue "CN".toList entries).or (firstValue "O".toList entries)

/-- The short name of an issuer: the common name, else the organization, else all of it. -/
def shortName (entries : List Attribute) : Text :=
  (issuerName entries).getD (renderIssuer entries)

/-- The attribute has the type in its text, with an equals sign behind it. -/
def Attribute.mentions (kind : Text) (entry : Attribute) : Bool :=
  spelling kind <:+: entry.text

/-- The attribute has the name in its text: between the first and the second place where the type is
mentioned, or the end, and up to the next comma. -/
def Spells (kind : Text) (entry : Attribute) (name : Text) : Prop :=
  ∃ middle, Between (spelling kind) entry.text middle ∧ name = middle.takeWhile (· ≠ ',')

/-- The first attribute that mentions the type gives the name of the issuer. -/
inductive Gives (kind : Text) (entries : List Attribute) (entry : Attribute) : Prop
  /-- It has the type, and nothing in its value looks like the end of it. -/
  | own (same : entry.kind = kind) (whole : ',' ∉ entry.value)
    (single : ¬ spelling kind <:+: entry.value)
  /-- It has another type, and the name that it spells is the name of the issuer by chance. -/
  | other {name : Text} (differs : entry.kind ≠ kind) (spelled : Spells kind entry name)
    (chance : issuerName entries = some (RustText.trim name))

/-- The rendered issuer can be read: the first attribute that mentions a common name gives the name; if
there is none, the first that mentions an organization does. -/
def Readable (entries : List Attribute) : Prop :=
  match entries.find? (Attribute.mentions "CN".toList) with
  | some entry => Gives "CN".toList entries entry
  | none =>
    match entries.find? (Attribute.mentions "O".toList) with
    | some entry => Gives "O".toList entries entry
    | none => True

section Search

variable {pattern text : Text}

/-- What follows a pattern follows its first occurrence. -/
theorem afterPattern_iff (nonempty : pattern ≠ []) {rest : Text} :
    afterPattern pattern text = some rest ↔ ∃ front, FirstAt pattern text front rest := by
  have finds : ∀ {text front rest : Text}, FirstAt pattern text front rest →
      afterPattern pattern text = some rest := by
    intro text front rest found
    induction text generalizing front with
    | nil =>
      have parts := List.append_eq_nil_iff.mp found.whole.symm
      exact absurd (List.append_eq_nil_iff.mp parts.2).1 nonempty
    | cons c text ih =>
      rw [afterPattern]
      cases front with
      | nil =>
        have whole : c :: text = pattern ++ rest := found.whole
        rw [whole, if_pos (by simp), List.drop_left]
      | cons d front =>
        obtain ⟨_, later, behind⟩ := found.tail
        rw [if_neg (by simpa using later)]
        exact ih behind
  constructor
  · intro found
    have occurs : pattern <:+: text := by
      by_contra absent
      induction text with
      | nil => contradiction
      | cons c text ih =>
        rw [List.infix_cons_iff, not_or] at absent
        rw [afterPattern, if_neg (by simpa using absent.1)] at found
        exact ih found absent.2
    obtain ⟨front, tail, first⟩ := Occurrence.infix_iff_firstAt.mp occurs
    have same : some tail = some rest := (finds first).symm.trans found
    rw [Option.some.injEq] at same
    exact ⟨front, by rw [← same]; exact first⟩
  · rintro ⟨front, first⟩
    exact finds first

/-- Nothing follows a pattern that does not occur. -/
theorem afterPattern_none (nonempty : pattern ≠ []) :
    afterPattern pattern text = none ↔ ¬ pattern <:+: text := by
  rw [Option.eq_none_iff_forall_ne_some, Occurrence.infix_iff_firstAt]
  constructor
  · rintro nothing ⟨front, rest, first⟩
    exact nothing rest ((afterPattern_iff nonempty).mpr ⟨front, first⟩)
  · intro absent rest found
    obtain ⟨front, first⟩ := (afterPattern_iff nonempty).mp found
    exact absent ⟨front, rest, first⟩

/-- A search finds exactly the patterns that occur. -/
theorem afterPattern_isSome (nonempty : pattern ≠ []) :
    (afterPattern pattern text).isSome = true ↔ pattern <:+: text := by
  rw [Option.isSome_iff_ne_none, ne_eq, afterPattern_none nonempty, not_not]

/-- What comes before a pattern comes before its first occurrence. -/
theorem beforePattern_first {front rest : Text} (found : FirstAt pattern text front rest) :
    beforePattern pattern text = front := by
  induction text generalizing front with
  | nil =>
    have parts := List.append_eq_nil_iff.mp found.whole.symm
    exact parts.1.symm
  | cons c text ih =>
    rw [beforePattern]
    cases front with
    | nil =>
      have starts : pattern <+: c :: text := ⟨rest, found.whole.symm⟩
      rw [if_pos (by simpa using starts)]
    | cons d front =>
      obtain ⟨same, later, behind⟩ := found.tail
      rw [if_neg (by simpa using later), same, ih behind]

/-- Before a pattern that does not occur comes everything. -/
theorem beforePattern_absent (absent : ¬ pattern <:+: text) : beforePattern pattern text = text := by
  induction text with
  | nil => rfl
  | cons c text ih =>
    rw [List.infix_cons_iff, not_or] at absent
    rw [beforePattern, if_neg (by simpa using absent.1), ih absent.2]

/-- What a search yields, in terms of the places where the pattern stands. -/
theorem issuerPart_iff (nonempty : pattern ≠ []) {name : Text} :
    issuerPart pattern text = some name ↔
      ∃ middle, Between pattern text middle ∧ name = RustText.trim (middle.takeWhile (· ≠ ',')) := by
  have middle_eq : ∀ {tail middle : Text},
      (∃ rest, FirstAt pattern tail middle rest) ∨ (middle = tail ∧ ¬ pattern <:+: tail) →
        beforePattern pattern tail = middle := by
    rintro tail middle (⟨rest, next⟩ | ⟨whole, absent⟩)
    · exact beforePattern_first next
    · rw [whole, beforePattern_absent absent]
  rw [issuerPart, Option.map_eq_some_iff]
  constructor
  · rintro ⟨tail, found, rfl⟩
    obtain ⟨front, first⟩ := (afterPattern_iff nonempty).mp found
    refine ⟨_, ⟨front, tail, first, ?_⟩, rfl⟩
    by_cases occurs : pattern <:+: tail
    · obtain ⟨middle, rest, next⟩ := Occurrence.infix_iff_firstAt.mp occurs
      exact .inl ⟨rest, by rw [beforePattern_first next]; exact next⟩
    · exact .inr ⟨beforePattern_absent occurs, occurs⟩
  · rintro ⟨middle, ⟨front, tail, first, ends⟩, rfl⟩
    refine ⟨tail, (afterPattern_iff nonempty).mpr ⟨front, first⟩, ?_⟩
    rw [middle_eq ends]

/-- A search yields nothing exactly when the pattern does not occur. -/
theorem issuerPart_none (nonempty : pattern ≠ []) :
    issuerPart pattern text = none ↔ ¬ pattern <:+: text := by
  rw [issuerPart, Option.map_eq_none_iff, afterPattern_none nonempty]

/-- What a search yields does not have the pattern. -/
theorem issuerPart_not_infix (nonempty : pattern ≠ []) {name : Text}
    (found : issuerPart pattern text = some name) : ¬ pattern <:+: name := by
  obtain ⟨middle, between, rfl⟩ := (issuerPart_iff nonempty).mp found
  intro occurs
  have cut : middle.takeWhile (· ≠ ',') <:+: middle := (List.takeWhile_prefix _).isInfix
  exact between.not_infix nonempty ((occurs.trans (RustText.trim_infix _)).trans cut)

/-- A part that ends at a comma is the same whatever follows the comma. -/
theorem takeWhile_comma (front back : Text) :
    (front ++ ',' :: back).takeWhile (· ≠ ',') = front.takeWhile (· ≠ ',') := by
  rw [List.takeWhile_append]
  split
  · rw [List.takeWhile_cons_of_neg (by decide), List.append_nil]
    rename_i full
    exact (List.takeWhile_prefix _).eq_of_length full |>.symm
  · rfl

/-- What comes before a pattern ends at the same comma, whatever follows the comma. -/
theorem beforePattern_comma (nonempty : pattern ≠ []) (comma : ',' ∉ pattern) (front back : Text) :
    (beforePattern pattern (front ++ ',' :: back)).takeWhile (· ≠ ',') =
      (beforePattern pattern front).takeWhile (· ≠ ',') := by
  by_cases here : pattern <:+: front
  · obtain ⟨middle, after, next⟩ := Occurrence.infix_iff_firstAt.mp here
    rw [beforePattern_first next, beforePattern_first (next.append _)]
  · rw [beforePattern_absent here]
    by_cases later : pattern <:+: back
    · obtain ⟨middle, after, next⟩ := Occurrence.infix_iff_firstAt.mp later
      rw [beforePattern_first (next.behind comma nonempty here), takeWhile_comma]
    · have absent : ¬ pattern <:+: front ++ ',' :: back := by
        rw [Occurrence.infix_append_iff comma nonempty]
        exact not_or.mpr ⟨here, later⟩
      rw [beforePattern_absent absent, takeWhile_comma]

/-- A search that finds the pattern before a comma does not look behind it. -/
theorem issuerPart_front (nonempty : pattern ≠ []) (comma : ',' ∉ pattern) {front : Text}
    (here : pattern <:+: front) (back : Text) :
    issuerPart pattern (front ++ ',' :: back) = issuerPart pattern front := by
  obtain ⟨before, tail, found⟩ := Occurrence.infix_iff_firstAt.mp here
  have alone := (afterPattern_iff nonempty).mpr ⟨before, found⟩
  have joined := (afterPattern_iff nonempty).mpr ⟨before, found.append (',' :: back)⟩
  rw [issuerPart, issuerPart, alone, joined, Option.map_some, Option.map_some,
    beforePattern_comma nonempty comma]

/-- A search that does not find the pattern before a separator goes on behind it. -/
theorem issuerPart_back {separator : Char} (nonempty : pattern ≠ []) (apart : separator ∉ pattern)
    {front : Text} (absent : ¬ pattern <:+: front) (back : Text) :
    issuerPart pattern (front ++ separator :: back) = issuerPart pattern back := by
  by_cases later : pattern <:+: back
  · obtain ⟨before, tail, found⟩ := Occurrence.infix_iff_firstAt.mp later
    have alone := (afterPattern_iff nonempty).mpr ⟨before, found⟩
    have joined := (afterPattern_iff nonempty).mpr ⟨_, found.behind apart nonempty absent⟩
    rw [issuerPart, issuerPart, alone, joined]
  · rw [(issuerPart_none nonempty).mpr later, issuerPart_none nonempty,
      Occurrence.infix_append_iff apart nonempty, not_or]
    exact ⟨absent, later⟩

/-- In two joined texts a search yields what it does in the first one, else in the second. -/
theorem issuerPart_append (nonempty : pattern ≠ []) (comma : ',' ∉ pattern) (blank : ' ' ∉ pattern)
    (first rest : Text) :
    issuerPart pattern (first ++ ',' :: ' ' :: rest) =
      (issuerPart pattern first).or (issuerPart pattern rest) := by
  by_cases here : pattern <:+: first
  · have found : issuerPart pattern first ≠ none := (issuerPart_none nonempty).not.mpr (not_not.mpr here)
    obtain ⟨name, yields⟩ := Option.ne_none_iff_exists'.mp found
    rw [issuerPart_front nonempty comma here, yields, Option.some_or]
  · have empty : ¬ pattern <:+: [] := fun inside => nonempty (List.infix_nil.mp inside)
    have spaced := issuerPart_back nonempty blank empty rest
    rw [List.nil_append] at spaced
    rw [issuerPart_back nonempty comma here, spaced, (issuerPart_none nonempty).mpr here,
      Option.none_or]

end Search

section Name

variable {kind : Text} {entry : Attribute} {entries : List Attribute}

/-- No type is searched by an empty text. -/
theorem spelling_ne_nil (kind : Text) : spelling kind ≠ [] := List.concat_ne_nil _ _

/-- An attribute mentions the type when its type is in its text. -/
theorem mentions_iff : entry.mentions kind = true ↔ spelling kind <:+: entry.text :=
  decide_eq_true_iff

/-- An attribute mentions its own type. -/
theorem mentions_own (same : entry.kind = kind) : entry.mentions kind = true := by
  rw [mentions_iff, Attribute.text, same]
  exact (List.prefix_append _ _).isInfix

/-- What a search yields in an attribute is a name that the attribute spells, trimmed. -/
theorem spells_iff {name : Text} :
    issuerPart (spelling kind) entry.text = some name ↔
      ∃ spelled, Spells kind entry spelled ∧ name = RustText.trim spelled := by
  rw [issuerPart_iff (spelling_ne_nil kind)]
  constructor
  · rintro ⟨middle, between, whole⟩
    exact ⟨_, ⟨middle, between, rfl⟩, whole⟩
  · rintro ⟨spelled, ⟨middle, between, rfl⟩, whole⟩
    exact ⟨middle, between, whole⟩

/-- A search in a rendered name yields what it does in the first attribute with the type in its text. -/
theorem issuerPart_render (comma : ',' ∉ kind) (blank : ' ' ∉ kind) (entries : List Attribute) :
    issuerPart (spelling kind) (renderIssuer entries) =
      (entries.find? (Attribute.mentions kind)).bind fun entry =>
        issuerPart (spelling kind) entry.text := by
  have nonempty := spelling_ne_nil kind
  have commaless : ',' ∉ spelling kind := by simp [spelling, comma]
  have blankless : ' ' ∉ spelling kind := by simp [spelling, blank]
  induction entries with
  | nil => rfl
  | cons entry entries ih =>
    have joined : issuerPart (spelling kind) (renderIssuer (entry :: entries)) =
        (issuerPart (spelling kind) entry.text).or
          (issuerPart (spelling kind) (renderIssuer entries)) := by
      cases entries with
      | nil =>
        have alone : renderIssuer [entry] = entry.text := List.intercalate_singleton
        have nothing : issuerPart (spelling kind) (renderIssuer []) = none := rfl
        rw [alone, nothing, Option.or_none]
      | cons next entries =>
        have parts : renderIssuer (entry :: next :: entries) =
            entry.text ++ ',' :: ' ' :: renderIssuer (next :: entries) := by
          rw [renderIssuer, List.map_cons, List.map_cons, List.intercalate_cons_cons,
            List.append_assoc]
          rfl
        rw [parts, issuerPart_append nonempty commaless blankless]
    rw [joined, ih]
    by_cases here : entry.mentions kind = true
    · have found : issuerPart (spelling kind) entry.text ≠ none := by
        rw [Ne, issuerPart_none nonempty, not_not]
        exact mentions_iff.mp here
      obtain ⟨name, yields⟩ := Option.ne_none_iff_exists'.mp found
      rw [List.find?_cons_of_pos here, yields, Option.some_or, Option.bind_some, yields]
    · have absent : issuerPart (spelling kind) entry.text = none := by
        rw [issuerPart_none nonempty]
        exact fun occurs => here (mentions_iff.mpr occurs)
      rw [List.find?_cons_of_neg here, absent, Option.none_or]

/-- The first attribute that mentions its own type is the first of that type. -/
theorem firstValue_own (found : entries.find? (Attribute.mentions kind) = some entry)
    (same : entry.kind = kind) : firstValue kind entries = some (RustText.trim entry.value) := by
  obtain ⟨_, before, after, parts, earlier⟩ := List.find?_eq_some_iff_append.mp found
  have first : entries.find? (fun entry => entry.kind = kind) = some entry := by
    apply List.find?_eq_some_iff_append.mpr
    refine ⟨decide_eq_true same, before, after, parts, ?_⟩
    intro other member
    have silent := earlier other member
    by_contra equal
    rw [mentions_own (by simpa using equal)] at silent
    contradiction
  rw [firstValue, first, Option.map_some]

/-- Where no attribute mentions a type, none has it. -/
theorem firstValue_none (absent : entries.find? (Attribute.mentions kind) = none) :
    firstValue kind entries = none := by
  rw [firstValue, Option.map_eq_none_iff, List.find?_eq_none]
  intro entry member equal
  exact List.find?_eq_none.mp absent entry member (mentions_own (by simpa using equal))

/-- In an attribute of the type a search yields the front of its value. -/
theorem issuerPart_own (same : entry.kind = kind) :
    issuerPart (spelling kind) entry.text =
      some (RustText.trim ((beforePattern (spelling kind) entry.value).takeWhile (· ≠ ','))) := by
  have here : afterPattern (spelling kind) entry.text = some entry.value := by
    rw [afterPattern_iff (spelling_ne_nil kind), Attribute.text, same]
    exact ⟨[], FirstAt.here _ _⟩
  rw [issuerPart, here, Option.map_some]

/-- The front of a value is all of it, but for white space, exactly when nothing in the value looks like
its end. -/
theorem trim_front_iff (value : Text) :
    RustText.trim ((beforePattern (spelling kind) value).takeWhile (· ≠ ',')) = RustText.trim value ↔
      ',' ∉ value ∧ ¬ spelling kind <:+: value := by
  constructor
  · intro same
    by_cases occurs : spelling kind <:+: value
    · obtain ⟨front, rest, found⟩ := Occurrence.infix_iff_firstAt.mp occurs
      rw [beforePattern_first found] at same
      obtain ⟨cut, front_eq⟩ := List.takeWhile_prefix (l := front) (· ≠ ',')
      have whole : value = front.takeWhile (· ≠ ',') ++ (cut ++ (spelling kind ++ rest)) := by
        rw [← List.append_assoc, front_eq]
        exact found.whole
      have white := RustText.isWhitespace_of_trim_eq (same.trans (congrArg RustText.trim whole)) '='
        (by simp [spelling])
      exact absurd white (by decide)
    · rw [beforePattern_absent occurs] at same
      refine ⟨fun member => ?_, occurs⟩
      obtain ⟨cut, whole⟩ := List.takeWhile_prefix (l := value) (· ≠ ',')
      have front : ',' ∉ value.takeWhile (· ≠ ',') := by
        intro inside
        exact absurd (List.all_eq_true.mp List.all_takeWhile ',' inside) (by decide)
      rw [← whole, List.mem_append] at member
      have white := RustText.isWhitespace_of_trim_eq (same.trans (congrArg RustText.trim whole.symm)) ','
        (member.resolve_left front)
      exact absurd white (by decide)
  · rintro ⟨plain, single⟩
    have full : value.takeWhile (· ≠ ',') = value := by
      apply List.takeWhile_eq_self_iff.mpr
      intro c member
      exact decide_eq_true fun comma => plain (comma ▸ member)
    rw [beforePattern_absent single, full]

/-- The first attribute that mentions the type gives the name of the issuer exactly when the search
yields it there. -/
theorem gives_iff (found : entries.find? (Attribute.mentions kind) = some entry)
    (first : ∀ value, firstValue kind entries = some value → issuerName entries = some value)
    (rendered : spelling kind <:+: renderIssuer entries) {name : Text}
    (yields : issuerPart (spelling kind) entry.text = some name) :
    name = shortName entries ↔ Gives kind entries entry := by
  by_cases same : entry.kind = kind
  · have known := first _ (firstValue_own found same)
    rw [issuerPart_own same, Option.some.injEq] at yields
    rw [shortName, known, Option.getD_some, ← yields, trim_front_iff]
    constructor
    · rintro ⟨whole, single⟩
      exact .own same whole single
    · intro gives
      cases gives with
      | own _ whole single => exact ⟨whole, single⟩
      | other differs => contradiction
  · constructor
    · intro right
      have clean := issuerPart_not_infix (spelling_ne_nil kind) yields
      obtain ⟨spelled, spells, trimmed⟩ := spells_iff.mp yields
      cases known : issuerName entries with
      | none =>
        rw [shortName, known, Option.getD_none] at right
        rw [right] at clean
        contradiction
      | some value =>
        rw [shortName, known, Option.getD_some] at right
        exact .other same spells (by rw [known, ← right, trimmed])
    · intro gives
      cases gives with
      | own equal => contradiction
      | @other spelled _ spells chance =>
        have again := spells_iff.mpr ⟨spelled, spells, rfl⟩
        rw [yields, Option.some.injEq] at again
        rw [shortName, chance, Option.getD_some, again]

/-- Where an attribute mentions the type, a search yields the same in it and in the rendered name. -/
theorem issuerPart_found (comma : ',' ∉ kind) (blank : ' ' ∉ kind)
    (found : entries.find? (Attribute.mentions kind) = some entry) :
    ∃ name, issuerPart (spelling kind) entry.text = some name ∧
      issuerPart (spelling kind) (renderIssuer entries) = some name := by
  have mentioned := mentions_iff.mp (List.find?_some found)
  have yields : issuerPart (spelling kind) entry.text ≠ none := by
    rw [Ne, issuerPart_none (spelling_ne_nil kind), not_not]
    exact mentioned
  obtain ⟨name, here⟩ := Option.ne_none_iff_exists'.mp yields
  refine ⟨name, here, ?_⟩
  rw [issuerPart_render comma blank, found, Option.bind_some, here]

/-- A search that yields the short name of the issuer does so in the first attribute that mentions the
type. -/
theorem found_iff (comma : ',' ∉ kind) (blank : ' ' ∉ kind)
    (found : entries.find? (Attribute.mentions kind) = some entry)
    (first : ∀ value, firstValue kind entries = some value → issuerName entries = some value) :
    issuerPart (spelling kind) (renderIssuer entries) = some (shortName entries) ↔
      Gives kind entries entry := by
  obtain ⟨name, here, whole⟩ := issuerPart_found comma blank found
  have rendered : spelling kind <:+: renderIssuer entries := by
    by_contra absent
    rw [(issuerPart_none (spelling_ne_nil kind)).mpr absent] at whole
    contradiction
  rw [whole, Option.some.injEq]
  exact gives_iff found first rendered here

/-- Where no attribute mentions the type, a search in the rendered name yields nothing. -/
theorem issuerPart_missing (comma : ',' ∉ kind) (blank : ' ' ∉ kind)
    (absent : entries.find? (Attribute.mentions kind) = none) :
    issuerPart (spelling kind) (renderIssuer entries) = none := by
  rw [issuerPart_render comma blank, absent, Option.bind_none]

end Name

/-- The short issuer is the common name, else the organization, exactly when the rendered issuer can
be read. -/
theorem shortIssuer_iff (info : CertificateInfo) (entries : List Attribute) :
    extractSimpleIssuer { info with issuer := renderIssuer entries } = shortName entries ↔
      Readable entries := by
  have extracted : extractSimpleIssuer { info with issuer := renderIssuer entries } =
      ((issuerPart (spelling "CN".toList) (renderIssuer entries)).or
        (issuerPart (spelling "O".toList) (renderIssuer entries))).getD (renderIssuer entries) := rfl
  rw [extracted, Readable]
  cases common : entries.find? (Attribute.mentions "CN".toList) with
  | some entry =>
    have first : ∀ value, firstValue "CN".toList entries = some value →
        issuerName entries = some value := by
      intro value known
      rw [issuerName, known, Option.some_or]
    obtain ⟨name, _, whole⟩ := issuerPart_found (by decide) (by decide) common
    have gives := found_iff (by decide) (by decide) common first
    rw [whole, Option.some.injEq] at gives
    rw [whole, Option.some_or, Option.getD_some]
    exact gives
  | none =>
    have none_common := firstValue_none common
    rw [issuerPart_missing (by decide) (by decide) common, Option.none_or]
    cases organization : entries.find? (Attribute.mentions "O".toList) with
    | some entry =>
      have first : ∀ value, firstValue "O".toList entries = some value →
          issuerName entries = some value := by
        intro value known
        rw [issuerName, none_common, Option.none_or, known]
      obtain ⟨name, _, whole⟩ := issuerPart_found (by decide) (by decide) organization
      have gives := found_iff (by decide) (by decide) organization first
      rw [whole, Option.some.injEq] at gives
      rw [whole, Option.getD_some]
      exact gives
    | none =>
      rw [issuerPart_missing (by decide) (by decide) organization, shortName, issuerName, none_common,
        firstValue_none organization]
      exact iff_of_true rfl trivial

/-! ## An organization with a comma -/

/-- A country, then an organization whose name has a comma. -/
def commaIssuer : List Attribute :=
  [{ kind := "C".toList, value := "US".toList },
    { kind := "O".toList, value := "DigiCert, Inc.".toList }]

example : renderIssuer commaIssuer = "C=US, O=DigiCert, Inc.".toList := by decide

/-- The organization is cut at its comma. -/
theorem comma_cut : ¬ ∀ (info : CertificateInfo) (entries : List Attribute),
    extractSimpleIssuer { info with issuer := renderIssuer entries } = shortName entries := by
  intro right
  have cut : extractSimpleIssuer { januaryCertificate with issuer := renderIssuer commaIssuer } ≠
      shortName commaIssuer := by decide
  exact cut (right januaryCertificate commaIssuer)

end Rcurl
