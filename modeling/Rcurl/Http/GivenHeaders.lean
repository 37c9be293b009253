import Rcurl.Http.ContentType

/-!
# The headers that are given

Every `-H` entry replaces what the map holds for its name, a default or an earlier entry alike. So the
values of a name are those of all the entries for it exactly when there is only one; names that no entry
is for keep what the other options and the defaults set. `given_headers_iff` says both.
-/

namespace Rcurl

open ShellWords (Text)

/-- The name of a `-H` entry, in lower case. -/
def entryName (entry : Text) : Option HeaderName :=
  (RustText.splitTwo ':' entry).bind fun split => HeaderName.fromStr split.1

/-- The names of the `-H` entries, in order. -/
def entryNames (entries : List Text) : List HeaderName := entries.filterMap entryName

/-- The values that the `-H` entries give to a name, in order. -/
def entryValues (name : HeaderName) (entries : List Text) : List HeaderValue :=
  entries.filterMap (headerEntryFor name)

/-- The value that the other options and the defaults set for a name. -/
def optionValue (world : BuildWorld) (cli : Cli) (name : HeaderName) : Option HeaderValue :=
  if name = .contentType then (mapType world cli).bind HeaderValue.fromStr else baseValue cli name

/-- No `-H` header is lost. -/
def HeadersKept (cli : Cli) (request : Request) : Prop :=
  ∀ name ∈ entryNames cli.headers,
    MultiMap.getAll name request.headers = entryValues name cli.headers

/-- The names that no `-H` entry is for have what the options set. -/
def OthersSet (world : BuildWorld) (cli : Cli) (request : Request) : Prop :=
  ∀ name, name ∉ entryNames cli.headers →
    MultiMap.getAll name request.headers = (optionValue world cli name).toList

section Entries

variable {entries : List Text}

/-- The `-H` entries were all taken: each has a name and a value. -/
def Taken (entries : List Text) : Prop :=
  ∀ entry ∈ entries, ∃ name value, entryName entry = some name ∧
    headerEntryFor name entry = some value

/-- An entry gives a value to its own name alone. -/
theorem entryName_of_value {name : HeaderName} {entry : Text} {value : HeaderValue}
    (gives : headerEntryFor name entry = some value) : entryName entry = some name := by
  obtain ⟨split, found, valued⟩ := Option.bind_eq_some_iff.mp gives
  rw [entryName, found, Option.bind_some]
  by_cases same : HeaderName.fromStr split.1 = some name
  · exact same
  · rw [if_neg same] at valued
    contradiction

/-- Entries that are added are taken. -/
theorem taken_of_added {map last : HeaderMap} (added : entries.foldlM addHeader map = .ok last) :
    Taken entries := by
  have kept := foldlM_invariant (fun seen (_ : HeaderMap) => Taken seen) ?_ entries [] ?_ added
  · exact kept
  · intro seen current next entry holds taken other member
    rcases List.mem_append.mp member with before | here
    · exact holds other before
    · obtain ⟨name, value, gives, _⟩ := addHeader_ok taken
      have own := gives name
      rw [if_pos rfl] at own
      rw [List.mem_singleton.mp here]
      exact ⟨name, value, entryName_of_value own, own⟩
  · exact fun entry absent => absurd absent List.not_mem_nil

/-- A name has as many values as it has entries. -/
theorem length_entryValues (taken : Taken entries) (name : HeaderName) :
    (entryValues name entries).length = (entryNames entries).count name := by
  induction entries with
  | nil => rfl
  | cons entry entries ih =>
    have rest := ih fun other member => taken other (List.mem_cons_of_mem entry member)
    obtain ⟨own, value, named, gives⟩ := taken entry List.mem_cons_self
    rw [entryValues, entryNames] at rest
    rw [entryValues, entryNames, List.filterMap_cons_some named]
    by_cases same : own = name
    · rw [same] at gives ⊢
      rw [List.filterMap_cons_some gives, List.length_cons, rest, List.count_cons_self]
    · have silent : headerEntryFor name entry = none := by
        cases known : headerEntryFor name entry with
        | none => rfl
        | some other =>
          have both := entryName_of_value known
          rw [named] at both
          exact absurd (Option.some.inj both) same
      rw [List.filterMap_cons_none silent, rest, List.count_cons_of_ne same]

/-- A name without entries has no last one. -/
theorem lastHeader_none (taken : Taken entries) {name : HeaderName}
    (absent : name ∉ entryNames entries) : lastHeader name entries = none := by
  have none_given := length_entryValues taken name
  rw [List.count_eq_zero_of_not_mem absent] at none_given
  have empty : entries.filterMap (headerEntryFor name) = [] := List.eq_nil_of_length_eq_zero none_given
  rw [lastHeader, empty]
  rfl

/-- The last element of a list is all of it exactly when there is at most one. -/
theorem getLast_toList_iff {α : Type} (elements : List α) :
    elements.getLast?.toList = elements ↔ elements.length ≤ 1 := by
  cases elements with
  | nil => exact iff_of_true rfl (Nat.zero_le 1)
  | cons first rest =>
    cases rest with
    | nil => exact iff_of_true rfl (Nat.le_refl 1)
    | cons second rest =>
      refine iff_of_false (fun same => ?_) fun few => ?_
      · have lengths := congrArg List.length same
        have short : (first :: second :: rest).getLast?.toList.length ≤ 1 := Option.length_toList_le
        rw [lengths, List.length_cons, List.length_cons] at short
        omega
      · rw [List.length_cons, List.length_cons] at few
        omega

end Entries

section Built

variable {world : BuildWorld} {cli : Cli} {uri : Uri} {request : Request}

/-- The entries of a request that is assembled are taken. -/
theorem taken_of_assembled (assembled : assembleRequest world cli uri = .ok request) :
    Taken cli.headers := by
  obtain ⟨map, prepared, filled, _, _, added, _, _⟩ := assembleRequest_ok assembled
  exact taken_of_added added

/-- The values of a built request without a form: the last entry for a name, else what the options
set. -/
theorem plainRequest_values (plain : cli.formOption = [])
    (assembled : assembleRequest world cli uri = .ok request) (name : HeaderName) :
    MultiMap.getAll name request.headers =
      ((lastHeader name cli.headers).or (optionValue world cli name)).toList := by
  rw [optionValue]
  by_cases typed : name = .contentType
  · have outside : builderType world cli = none := if_neg (not_not.mpr plain)
    rw [if_pos typed, typed, assembleRequest_contentType assembled, outside]
    rfl
  · rw [if_neg typed]
    exact assembleRequest_values assembled name typed

end Built

/-- Every built request without a form has, for the names no `-H` entry is for, what the options set;
and it has all values of the others exactly when every entry has its own name. -/
theorem given_headers_iff (world : BuildWorld) (cli : Cli) (uri : Uri) (request : Request)
    (plain : cli.formOption = []) (built : buildRequest world cli uri = .ok request) :
    OthersSet world cli request ∧ (HeadersKept cli request ↔ (entryNames cli.headers).Nodup) := by
  have assembled := buildRequest_ok built
  have taken := taken_of_assembled assembled
  have values := plainRequest_values plain assembled
  constructor
  · intro name absent
    rw [values, lastHeader_none taken absent, Option.none_or]
  · rw [List.nodup_iff_count_le_one]
    have kept_iff : ∀ name ∈ entryNames cli.headers,
        (MultiMap.getAll name request.headers = entryValues name cli.headers ↔
          (entryNames cli.headers).count name ≤ 1) := by
      intro name member
      have positive : 0 < (entryNames cli.headers).count name := List.count_pos_iff.mpr member
      rw [← length_entryValues taken] at positive ⊢
      have last := List.getLast?_eq_some_getLast (List.ne_nil_of_length_pos positive)
      have found : lastHeader name cli.headers = (entryValues name cli.headers).getLast? := rfl
      rw [values, found, last, Option.some_or, ← last]
      exact getLast_toList_iff _
    constructor
    · intro kept name
      by_cases member : name ∈ entryNames cli.headers
      · exact (kept_iff name member).mp (kept name member)
      · rw [List.count_eq_zero_of_not_mem member]
        exact Nat.zero_le 1
    · intro single name member
      exact (kept_iff name member).mpr (single name)

/-! ## Two entries for one name -/

/-- `rcurl -H "A: 1" -H "a: 2" http://h/`. -/
def repeatedCli : Cli := { plainCli with headers := ["A: 1".toList, "a: 2".toList] }

/-- `rcurl -H "A: 1" http://h/`. -/
def givenCli : Cli := { plainCli with headers := ["A: 1".toList] }

/-- One entry is kept. -/
theorem given_headers_one : ∃ request, buildRequest formWorld givenCli plainUri = .ok request ∧
    HeadersKept givenCli request :=
  ⟨_, rfl, (given_headers_iff formWorld givenCli plainUri _ rfl rfl).2.mpr (by decide)⟩

/-- The first of two entries is lost. -/
theorem repeated_header_lost : ¬ ∀ (world : BuildWorld) (cli : Cli) (uri : Uri) (request : Request),
    cli.formOption = [] → buildRequest world cli uri = .ok request → HeadersKept cli request := by
  intro kept
  have built : ∃ request, buildRequest formWorld repeatedCli plainUri = .ok request ∧
      ∃ name ∈ entryNames repeatedCli.headers,
        MultiMap.getAll name request.headers ≠ entryValues name repeatedCli.headers :=
    ⟨_, rfl, by decide⟩
  obtain ⟨request, built, name, member, lost⟩ := built
  exact lost (kept formWorld repeatedCli plainUri request rfl built name member)

end Rcurl
