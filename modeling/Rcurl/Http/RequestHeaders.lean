import Rcurl.Http.BuildRequest

/-!
# The headers of a built request

Which values a request carries for a name: the last `-H` entry that names it, else what the other
options or the defaults set, `assembleRequest_values`. Only the content type is left out, which the
body may set as well.
-/

namespace Rcurl

open ShellWords (Text)

/-- A sequence of two fallible steps succeeds when both do. -/
theorem bind_ok {ε α β : Type} {first : Except ε α} {second : α → Except ε β} {result : β} :
    (first >>= second) = .ok result ↔ ∃ value, first = .ok value ∧ second value = .ok result := by
  cases first with
  | error error => simp [bind, Except.bind]
  | ok value => simp [bind, Except.bind]

/-- Fallible steps over a list succeed when every one does. -/
theorem mapM_ok {ε α β : Type} {step : α → Except ε β} {elements : List α} {results : List β} :
    elements.mapM step = .ok results ↔
      List.Forall₂ (fun element result => step element = .ok result) elements results := by
  induction elements generalizing results with
  | nil =>
    rw [List.mapM_nil, List.forall₂_nil_left_iff]
    exact ⟨fun same => (Except.ok.inj same).symm, fun same => congrArg Except.ok same.symm⟩
  | cons element elements ih =>
    rw [List.mapM_cons, bind_ok, List.forall₂_cons_left_iff]
    apply exists_congr
    intro result
    rw [bind_ok]
    constructor
    · rintro ⟨first, later, found, same⟩
      exact ⟨later, first, ih.mp found, (Except.ok.inj same).symm⟩
    · rintro ⟨later, first, found, same⟩
      exact ⟨first, later, ih.mpr found, congrArg Except.ok same.symm⟩

/-- A fold of fallible steps keeps what every step keeps. -/
theorem foldlM_invariant {ε α β : Type} {step : β → α → Except ε β} (Kept : List α → β → Prop)
    (keeps : ∀ seen value next element, Kept seen value → step value element = .ok next →
      Kept (seen ++ [element]) next) (elements : List α) :
    ∀ (seen : List α) {first last : β}, Kept seen first → elements.foldlM step first = .ok last →
      Kept (seen ++ elements) last := by
  induction elements with
  | nil =>
    intro seen first last holds folded
    rw [← Except.ok.inj folded, List.append_nil]
    exact holds
  | cons element elements ih =>
    intro seen first last holds folded
    rw [List.foldlM_cons, bind_ok] at folded
    obtain ⟨next, taken, later⟩ := folded
    have rest := ih (seen ++ [element]) (keeps seen first next element holds taken) later
    rwa [List.append_assoc] at rest

/-- An inserted text is a header value. -/
theorem insertStr_ok {name : HeaderName} {text : Text} {map next : HeaderMap} :
    insertStr name text map = .ok next ↔
      ∃ value, HeaderValue.fromStr text = some value ∧ next = MultiMap.insert name value map := by
  rw [insertStr]
  cases HeaderValue.fromStr text with
  | none => simp
  | some value => simp [eq_comm]

/-- The value one `-H` entry gives to a name. -/
def headerEntryFor (name : HeaderName) (entry : Text) : Option HeaderValue :=
  (RustText.splitTwo ':' entry).bind fun split =>
    if HeaderName.fromStr split.1 = some name then
      HeaderValue.fromStr (RustText.trimStart split.2)
    else none

/-- The value the last `-H` entry for a name gives to it. -/
def lastHeader (name : HeaderName) (entries : List Text) : Option HeaderValue :=
  (entries.filterMap (headerEntryFor name)).getLast?

/-- The value of a name, other than the content type, before the `-H` entries. -/
def baseValue (cli : Cli) (name : HeaderName) : Option HeaderValue :=
  if name = .accept then HeaderValue.fromStr "*/*".toList
  else if name = .userAgent then HeaderValue.fromStr (cli.userAgentOption.getD defaultUserAgent)
  else if name = .cookie then cli.cookieOption.bind HeaderValue.fromStr
  else none

/-- A taken `-H` entry inserts its value under its name. -/
theorem addHeader_ok {map next : HeaderMap} {entry : Text} (added : addHeader map entry = .ok next) :
    ∃ name value, (∀ other, headerEntryFor other entry = if other = name then some value else none) ∧
      next = MultiMap.insert name value map := by
  rw [addHeader] at added
  cases split : RustText.splitTwo ':' entry with
  | none => simp [split] at added
  | some parts =>
    obtain ⟨left, right⟩ := parts
    simp only [split] at added
    cases named : HeaderName.fromStr left with
    | none => simp [named] at added
    | some name =>
      simp only [named] at added
      obtain ⟨value, known, rfl⟩ := insertStr_ok.mp added
      refine ⟨name, value, fun other => ?_, rfl⟩
      rw [headerEntryFor, split, Option.bind_some]
      simp only [named, known, Option.some.injEq, eq_comm]

/-- The values of a name after the `-H` entries: the last one given, else those before. -/
theorem addHeaders_values {entries : List Text} {map last : HeaderMap}
    (added : entries.foldlM addHeader map = .ok last) (name : HeaderName) :
    MultiMap.getAll name last =
      match lastHeader name entries with
      | some value => [value]
      | none => MultiMap.getAll name map := by
  have kept := foldlM_invariant (fun seen current => MultiMap.getAll name current =
      match lastHeader name seen with
      | some value => [value]
      | none => MultiMap.getAll name map) ?_ entries [] rfl added
  · exact kept
  · intro seen current next entry holds taken
    obtain ⟨given, value, gives, rfl⟩ := addHeader_ok taken
    have here := gives name
    by_cases same : name = given
    · rw [if_pos same] at here
      rw [same] at here ⊢
      rw [MultiMap.getAll_insert_self, lastHeader, List.filterMap_append]
      simp [here]
    · rw [if_neg same] at here
      rw [MultiMap.getAll_insert_of_ne same, holds, lastHeader, lastHeader, List.filterMap_append]
      simp [here]

/-- The `-H` entries keep one value to a name. -/
theorem addHeaders_single {entries : List Text} {map last : HeaderMap}
    (added : entries.foldlM addHeader map = .ok last) (single : MultiMap.Single map) :
    MultiMap.Single last := by
  refine foldlM_invariant (fun _ current => MultiMap.Single current) ?_ entries [] single added
  intro seen current next entry holds taken
  obtain ⟨given, value, _, rfl⟩ := addHeader_ok taken
  exact MultiMap.insert_single holds given value

/-- Inserting under the content type changes no other name. -/
theorem getAll_insertStr {name other : HeaderName} {text : Text} {map next : HeaderMap}
    (inserted : insertStr name text map = .ok next) (apart : other ≠ name) :
    MultiMap.getAll other next = MultiMap.getAll other map := by
  obtain ⟨value, _, rfl⟩ := insertStr_ok.mp inserted
  exact MultiMap.getAll_insert_of_ne apart value map

/-- Inserting keeps one value to a name. -/
theorem insertStr_single {name : HeaderName} {text : Text} {map next : HeaderMap}
    (inserted : insertStr name text map = .ok next) (single : MultiMap.Single map) :
    MultiMap.Single next := by
  obtain ⟨value, _, rfl⟩ := insertStr_ok.mp inserted
  exact MultiMap.insert_single single name value

/-- An inserted text is the value of its name. -/
theorem getAll_insertStr_self {name : HeaderName} {text : Text} {map next : HeaderMap}
    (inserted : insertStr name text map = .ok next) :
    MultiMap.getAll name next = (HeaderValue.fromStr text).toList := by
  obtain ⟨value, known, rfl⟩ := insertStr_ok.mp inserted
  rw [MultiMap.getAll_insert_self, known]
  rfl

/-- The headers before the body: one value to a name, and the known one. -/
theorem baseHeaders_ok {cli : Cli} {map : HeaderMap} (based : baseHeaders cli = .ok map) :
    MultiMap.Single map ∧ ∀ name, name ≠ .contentType →
      MultiMap.getAll name map = (baseValue cli name).toList := by
  obtain ⟨first, typed, based⟩ := bind_ok.mp based
  obtain ⟨second, accepts, based⟩ := bind_ok.mp based
  obtain ⟨third, agent, last⟩ := bind_ok.mp based
  have opening : MultiMap.Single first ∧
      ∀ name, name ≠ .contentType → MultiMap.getAll name first = [] := by
    rw [dataHeaders] at typed
    split_ifs at typed
    · exact ⟨insertStr_single typed List.nodup_nil, fun name apart => getAll_insertStr typed apart⟩
    · rw [← Except.ok.inj typed]
      exact ⟨List.nodup_nil, fun _ _ => rfl⟩
  have middle := insertStr_single agent (insertStr_single accepts opening.1)
  have values : ∀ name, name ≠ .contentType → name ≠ .cookie →
      MultiMap.getAll name third = (baseValue cli name).toList := by
    intro name apart bare
    rw [baseValue]
    by_cases isAgent : name = .userAgent
    · rw [isAgent, if_neg (by decide), if_pos rfl, getAll_insertStr_self agent]
    · rw [getAll_insertStr agent isAgent]
      by_cases isAccept : name = .accept
      · rw [isAccept, if_pos rfl, getAll_insertStr_self accepts]
      · rw [getAll_insertStr accepts isAccept, opening.2 name apart, if_neg isAccept, if_neg isAgent,
          if_neg bare]
        rfl
  have uncooked : MultiMap.getAll .cookie third = [] := by
    rw [getAll_insertStr agent (by decide), getAll_insertStr accepts (by decide),
      opening.2 _ (by decide)]
  cases given : cli.cookieOption with
  | none =>
    rw [given] at last
    rw [← Except.ok.inj last]
    refine ⟨middle, fun name apart => ?_⟩
    by_cases isCookie : name = .cookie
    · rw [isCookie, uncooked, baseValue, if_neg (by decide), if_neg (by decide), if_pos rfl, given]
      rfl
    · exact values name apart isCookie
  | some text =>
    rw [given] at last
    refine ⟨insertStr_single last middle, fun name apart => ?_⟩
    by_cases isCookie : name = .cookie
    · rw [isCookie, getAll_insertStr_self last, baseValue, if_neg (by decide), if_neg (by decide),
        if_pos rfl, given]
      rfl
    · rw [getAll_insertStr last isCookie]
      exact values name apart isCookie

/-- The body decides about the content type alone. -/
theorem prepareBody_ok {world : BuildWorld} {cli : Cli} {map : HeaderMap} {prepared : Prepared}
    (readied : prepareBody world cli map = .ok prepared) (single : MultiMap.Single map) :
    MultiMap.Single prepared.map ∧ ∀ name, name ≠ .contentType →
      MultiMap.getAll name prepared.builder = [] ∧
        MultiMap.getAll name prepared.map = MultiMap.getAll name map := by
  rw [prepareBody] at readied
  split_ifs at readied
  · obtain ⟨builder, typed, readied⟩ := bind_ok.mp readied
    obtain ⟨parts, _, readied⟩ := bind_ok.mp readied
    rw [← Except.ok.inj readied]
    exact ⟨single, fun name apart => ⟨getAll_insertStr typed apart, rfl⟩⟩
  · split at readied
    · rw [← Except.ok.inj readied]
      exact ⟨single, fun _ _ => ⟨rfl, rfl⟩⟩
    · split at readied
      · contradiction
      · obtain ⟨next, typed, readied⟩ := bind_ok.mp readied
        rw [← Except.ok.inj readied]
        exact ⟨insertStr_single typed single, fun name apart => ⟨rfl, getAll_insertStr typed apart⟩⟩
    · rw [← Except.ok.inj readied]
      exact ⟨single, fun _ _ => ⟨rfl, rfl⟩⟩

/-- Every header of a map with one value to a name reaches the builder, behind those it has. -/
theorem giveHeaders_values (map : HeaderMap) (name : HeaderName) : ∀ {builder last : HeaderMap},
    (map.map fun entry => (some entry.1, entry.2)).foldlM giveHeader builder = .ok last →
      MultiMap.getAll name last = MultiMap.getAll name builder ++ MultiMap.getAll name map := by
  induction map with
  | nil =>
    intro builder last given
    rw [← Except.ok.inj given, MultiMap.getAll_nil, List.append_nil]
  | cons entry map ih =>
    intro builder last given
    rw [List.map_cons, List.foldlM_cons, bind_ok] at given
    obtain ⟨next, taken, later⟩ := given
    have appended : next = MultiMap.append entry.1 entry.2 builder := (Except.ok.inj taken).symm
    rw [ih later, appended, MultiMap.getAll_cons]
    split_ifs with same
    · rw [same, MultiMap.getAll_append_self, List.append_assoc]
      rfl
    · rw [MultiMap.getAll_append_of_ne (fun equal => same equal.symm)]

/-- What an assembled request is made of: the base headers, the body, the `-H` entries, and all that
is given to the builder behind what it has. -/
theorem assembleRequest_ok {world : BuildWorld} {cli : Cli} {uri : Uri} {request : Request}
    (assembled : assembleRequest world cli uri = .ok request) :
    ∃ map prepared filled, baseHeaders cli = .ok map ∧ prepareBody world cli map = .ok prepared ∧
      cli.headers.foldlM addHeader prepared.map = .ok filled ∧
        (∀ name, MultiMap.getAll name request.headers =
          MultiMap.getAll name prepared.builder ++ MultiMap.getAll name filled) ∧
          request = finishRequest cli uri request.headers prepared.body := by
  obtain ⟨map, based, assembled⟩ := bind_ok.mp assembled
  obtain ⟨prepared, readied, assembled⟩ := bind_ok.mp assembled
  obtain ⟨filled, added, assembled⟩ := bind_ok.mp assembled
  obtain ⟨headers, given, finished⟩ := bind_ok.mp assembled
  have single := (prepareBody_ok readied (baseHeaders_ok based).1).1
  rw [MultiMap.intoIter_single (addHeaders_single added single)] at given
  split_ifs at finished
  refine ⟨map, prepared, filled, based, readied, added, ?_, ?_⟩
  · intro name
    rw [← Except.ok.inj finished, finishRequest, giveHeaders_values filled name given]
  · rw [← Except.ok.inj finished]
    rfl

/-- The values of a built request: for every name but the content type, the last `-H` entry for
it, else what the options and defaults set, and never more than one. -/
theorem assembleRequest_values {world : BuildWorld} {cli : Cli} {uri : Uri} {request : Request}
    (assembled : assembleRequest world cli uri = .ok request) (name : HeaderName)
    (apart : name ≠ .contentType) :
    MultiMap.getAll name request.headers =
      ((lastHeader name cli.headers).or (baseValue cli name)).toList := by
  obtain ⟨map, prepared, filled, based, readied, added, values, _⟩ := assembleRequest_ok assembled
  have base := baseHeaders_ok based
  have body := (prepareBody_ok readied base.1).2 name apart
  rw [values, body.1, List.nil_append, addHeaders_values added name]
  cases lastHeader name cli.headers with
  | some value => rfl
  | none => exact body.2.trans (base.2 name apart)

/-- A built request is one that was assembled. -/
theorem buildRequest_ok {world : BuildWorld} {cli : Cli} {uri : Uri} {request : Request}
    (built : buildRequest world cli uri = .ok request) :
    assembleRequest world cli uri = .ok request := by
  obtain ⟨assembled, known, logged⟩ := bind_ok.mp built
  obtain ⟨_, _, same⟩ := bind_ok.mp logged
  rw [known, Except.ok.inj same]

/-- An assembled request keeps the target it was built for. -/
theorem assembleRequest_uri {world : BuildWorld} {cli : Cli} {uri : Uri} {request : Request}
    (assembled : assembleRequest world cli uri = .ok request) : request.uri = uri := by
  obtain ⟨_, _, _, _, _, _, _, whole⟩ := assembleRequest_ok assembled
  rw [whole, finishRequest]

end Rcurl
