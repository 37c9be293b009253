import Rcurl.Http.Resubmission

/-!
# The content type of a request

The type of `-d` and `-T` goes to the map, where a `-H` entry replaces it; the type of a form goes to the
builder, where whatever the map holds is added to it. So a form with data or with a content type of its
own is sent with two of them, and only then: `content_type_iff`.
-/

namespace Rcurl

open ShellWords (Text)

/-- The type of `-d`. -/
def urlencodedType : Text := "application/x-www-form-urlencoded".toList

/-- The type of a form. -/
def multipartType (boundary : Text) : Text := "multipart/form-data; boundary=".toList ++ boundary

/-- The type guessed for the file of `-T`. -/
def uploadType (world : BuildWorld) (path : Text) : Text := (world.mimeOf path).getD octetStream

/-- The type of a body that is sent: that of the form with its boundary, of the data, or of the file. -/
def bodyType (world : BuildWorld) (cli : Cli) : RequestBody → Option Text
  | .form boundary _ => some (multipartType boundary)
  | .bytes _ =>
    if cli.bodyOption.isSome then some urlencodedType
    else cli.uploadfileOption.map (uploadType world)

/-- The type the map holds before the `-H` entries. -/
def mapType (world : BuildWorld) (cli : Cli) : Option Text :=
  if cli.bodyOption.isSome then some urlencodedType
  else if cli.formOption ≠ [] then none
  else cli.uploadfileOption.map (uploadType world)

/-- The type the builder holds before the map is given to it. -/
def builderType (world : BuildWorld) (cli : Cli) : Option Text :=
  if cli.formOption ≠ [] then some (multipartType world.boundary) else none

/-- The content type of a request is single and describes its body: a `-H` entry for it, the last one,
else the type of the body. -/
structure ContentTypeRight (world : BuildWorld) (cli : Cli) (request : Request) : Prop where
  /-- There is at most one. -/
  single : (MultiMap.getAll .contentType request.headers).length ≤ 1
  /-- Without a `-H` entry it is the one of the body. -/
  described : lastHeader .contentType cli.headers = none →
    MultiMap.getAll .contentType request.headers =
      ((bodyType world cli request.body).bind HeaderValue.fromStr).toList
  /-- A `-H` entry is sent alone. -/
  given : ∀ value, lastHeader .contentType cli.headers = some value →
    MultiMap.getAll .contentType request.headers = [value]

section Built

variable {world : BuildWorld} {cli : Cli}

/-- The headers before the body hold the type of the data. -/
theorem baseHeaders_contentType {map : HeaderMap} (based : baseHeaders cli = .ok map) :
    MultiMap.getAll .contentType map =
      ((if cli.bodyOption.isSome then some urlencodedType else none).bind HeaderValue.fromStr).toList := by
  obtain ⟨first, typed, based⟩ := bind_ok.mp based
  obtain ⟨second, accepts, based⟩ := bind_ok.mp based
  obtain ⟨third, agent, last⟩ := bind_ok.mp based
  have opening : MultiMap.getAll .contentType first =
      ((if cli.bodyOption.isSome then some urlencodedType else none).bind HeaderValue.fromStr).toList := by
    rw [dataHeaders] at typed
    by_cases data : cli.bodyOption.isSome = true
    · rw [if_pos data] at typed ⊢
      exact getAll_insertStr_self typed
    · rw [if_neg data] at typed ⊢
      rw [← Except.ok.inj typed]
      rfl
  have middle : MultiMap.getAll .contentType third = MultiMap.getAll .contentType first := by
    rw [getAll_insertStr agent (by decide), getAll_insertStr accepts (by decide)]
  rw [← opening, ← middle]
  cases cookie : cli.cookieOption with
  | none =>
    rw [cookie] at last
    rw [← Except.ok.inj last]
  | some text =>
    rw [cookie] at last
    exact getAll_insertStr last (by decide)

/-- The body leaves its type in the builder or in the map. -/
theorem prepareBody_contentType {map : HeaderMap} {prepared : Prepared}
    (readied : prepareBody world cli map = .ok prepared)
    (data : MultiMap.getAll .contentType map =
      ((if cli.bodyOption.isSome then some urlencodedType else none).bind HeaderValue.fromStr).toList) :
    MultiMap.getAll .contentType prepared.builder =
        ((builderType world cli).bind HeaderValue.fromStr).toList ∧
      MultiMap.getAll .contentType prepared.map =
        ((mapType world cli).bind HeaderValue.fromStr).toList := by
  rw [prepareBody] at readied
  rw [builderType, mapType]
  by_cases form : cli.formOption ≠ []
  · rw [if_pos form] at readied
    rw [if_pos form, if_pos form]
    obtain ⟨builder, typed, readied⟩ := bind_ok.mp readied
    obtain ⟨parts, _, readied⟩ := bind_ok.mp readied
    rw [← Except.ok.inj readied]
    exact ⟨getAll_insertStr_self typed, data⟩
  · rw [if_neg form] at readied
    rw [if_neg form, if_neg form]
    cases body : cli.bodyOption with
    | some text =>
      simp only [body, Except.ok.injEq] at readied
      rw [body] at data
      rw [← readied]
      exact ⟨rfl, data⟩
    | none =>
      rw [body] at data
      cases upload : cli.uploadfileOption with
      | none =>
        simp only [body, upload, Except.ok.injEq] at readied
        rw [← readied]
        exact ⟨rfl, data⟩
      | some path =>
        simp only [body, upload] at readied
        cases content : world.readFile path with
        | none => simp [content] at readied
        | some bytes =>
          rw [content] at readied
          obtain ⟨filled, typed, readied⟩ := bind_ok.mp readied
          rw [← Except.ok.inj readied]
          exact ⟨rfl, getAll_insertStr_self typed⟩

/-- The content types of a built request: that of the form, and behind it the last `-H` entry for it,
or else the type that the map holds. -/
theorem assembleRequest_contentType {uri : Uri} {request : Request}
    (assembled : assembleRequest world cli uri = .ok request) :
    MultiMap.getAll .contentType request.headers =
      ((builderType world cli).bind HeaderValue.fromStr).toList ++
        ((lastHeader .contentType cli.headers).or
          ((mapType world cli).bind HeaderValue.fromStr)).toList := by
  obtain ⟨map, prepared, filled, based, readied, added, values, _⟩ := assembleRequest_ok assembled
  have types := prepareBody_contentType readied (baseHeaders_contentType based)
  rw [values, types.1, addHeaders_values added]
  cases lastHeader .contentType cli.headers with
  | some value => rfl
  | none => rw [types.2, Option.none_or]

/-- The type of a form that is built is a header value. -/
theorem multipartType_valid {uri : Uri} {request : Request}
    (assembled : assembleRequest world cli uri = .ok request) (form : cli.formOption ≠ []) :
    ∃ value, HeaderValue.fromStr (multipartType world.boundary) = some value := by
  obtain ⟨map, prepared, _, _, readied, _, _, _⟩ := assembleRequest_ok assembled
  rw [prepareBody, if_pos form] at readied
  obtain ⟨builder, typed, _⟩ := bind_ok.mp readied
  obtain ⟨value, known, _⟩ := insertStr_ok.mp typed
  exact ⟨value, known⟩

/-- A form is sent with its boundary. -/
theorem bodyType_form {uri : Uri} {request : Request}
    (assembled : assembleRequest world cli uri = .ok request) (form : cli.formOption ≠ []) :
    bodyType world cli request.body = some (multipartType world.boundary) := by
  have given := (assembleRequest_method_body assembled).2
  rw [givenBody, if_pos form] at given
  obtain ⟨parts, _, same⟩ := Option.map_eq_some_iff.mp given
  rw [← same, bodyType]

/-- Without a form the type of the body is the one in the map. -/
theorem bodyType_plain {uri : Uri} {request : Request}
    (assembled : assembleRequest world cli uri = .ok request) (form : cli.formOption = []) :
    bodyType world cli request.body = mapType world cli := by
  have given := (assembleRequest_method_body assembled).2
  have plain : ¬ cli.formOption ≠ [] := not_not.mpr form
  have bytes : ∃ content, request.body = .bytes content := by
    rw [givenBody, if_neg plain] at given
    cases body : cli.bodyOption with
    | some text =>
      simp only [body, Option.some.injEq] at given
      exact ⟨_, given.symm⟩
    | none =>
      cases upload : cli.uploadfileOption with
      | none =>
        simp only [body, upload, Option.some.injEq] at given
        exact ⟨_, given.symm⟩
      | some path =>
        simp only [body, upload] at given
        obtain ⟨content, _, same⟩ := Option.map_eq_some_iff.mp given
        exact ⟨content, same.symm⟩
  obtain ⟨content, same⟩ := bytes
  rw [same, bodyType, mapType, if_neg plain]

end Built

/-- The content type of every built request is single and describes its body exactly when there is no
form, or the form comes without data and without a content type of its own. -/
theorem content_type_iff (world : BuildWorld) (cli : Cli) (uri : Uri) (request : Request)
    (built : buildRequest world cli uri = .ok request) :
    ContentTypeRight world cli request ↔
      cli.formOption = [] ∨ (cli.bodyOption = none ∧ lastHeader .contentType cli.headers = none) := by
  have assembled := buildRequest_ok built
  have types := assembleRequest_contentType assembled
  by_cases form : cli.formOption = []
  · have outside : builderType world cli = none := if_neg (not_not.mpr form)
    rw [outside, Option.bind_none, Option.toList_none, List.nil_append,
      ← bodyType_plain assembled form] at types
    refine iff_of_true ⟨?_, ?_, ?_⟩ (.inl form)
    · rw [types]
      exact Option.length_toList_le
    · intro absent
      rw [types, absent, Option.none_or]
    · intro value known
      rw [types, known]
      rfl
  · obtain ⟨multipart, valid⟩ := multipartType_valid assembled form
    have outside : builderType world cli = some (multipartType world.boundary) := if_pos form
    rw [outside, Option.bind_some, valid, Option.toList_some, List.singleton_append] at types
    rw [or_iff_right form]
    constructor
    · intro right
      have one := right.single
      rw [types, List.length_cons] at one
      have nothing := List.eq_nil_of_length_eq_zero (Nat.le_zero.mp (Nat.le_of_succ_le_succ one))
      have both := Option.or_eq_none_iff.mp (Option.toList_eq_nil_iff.mp nothing)
      refine ⟨?_, both.1⟩
      cases data : cli.bodyOption with
      | none => rfl
      | some text =>
        have typed : mapType world cli = some urlencodedType := by
          rw [mapType, data]
          rfl
        have header : (HeaderValue.fromStr urlencodedType).isSome = true := by decide
        rw [typed, Option.bind_some] at both
        rw [both.2] at header
        contradiction
    · rintro ⟨data, absent⟩
      have untyped : mapType world cli = none := by
        rw [mapType, data, if_pos form]
        rfl
      rw [untyped, absent] at types
      refine ⟨?_, ?_, ?_⟩
      · rw [types]
        exact Nat.le_refl 1
      · intro _
        rw [types, bodyType_form assembled form, Option.bind_some, valid]
        rfl
      · intro value known
        rw [absent] at known
        contradiction

/-! ## A form with data -/

/-- A world without files, with the boundary `b`. -/
def formWorld : BuildWorld :=
  { readFile := fun _ => none, mimeOf := fun _ => none, boundary := "b".toList, debugLogs := true }

/-- `rcurl -F k=v http://h/`. -/
def simpleFormCli : Cli := { plainCli with formOption := ["k=v".toList] }

/-- `rcurl -d a=b -F k=v http://h/`. -/
def formDataCli : Cli := { simpleFormCli with bodyOption := some "a=b".toList }

/-- A form alone. -/
theorem content_type_form : ∃ request, buildRequest formWorld simpleFormCli plainUri = .ok request ∧
    ContentTypeRight formWorld simpleFormCli request :=
  ⟨_, rfl, (content_type_iff formWorld simpleFormCli plainUri _ rfl).mpr (.inr ⟨rfl, rfl⟩)⟩

/-- The request of a form with data has two content types. -/
theorem form_data_types : ¬ ∀ (world : BuildWorld) (cli : Cli) (uri : Uri) (request : Request),
    buildRequest world cli uri = .ok request → ContentTypeRight world cli request := by
  intro right
  obtain ⟨request, built, two⟩ : ∃ request, buildRequest formWorld formDataCli plainUri = .ok request ∧
      (MultiMap.getAll .contentType request.headers).length = 2 := ⟨_, rfl, by decide⟩
  have one := (right formWorld formDataCli plainUri request built).single
  rw [two] at one
  exact absurd one (by decide)

end Rcurl
