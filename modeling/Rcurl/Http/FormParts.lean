import Rcurl.Http.Resubmission

/-!
# The parts of a form

Every `-F` entry of a request that is built becomes one part. A field holds its value as it is. A file
part is another matter: the path behind `@` loses every further `@`, and only its last component is
opened, where the request is made. `form_parts_iff` says which entries get the file they name.
-/

namespace Rcurl

open ShellWords (Text)

/-- A part is what its entry names: the value of a field, or the content and the name of a file. -/
inductive PartOf (world : BuildWorld) : Text → FormPart → Prop
  | field {name value : Text} (first : '=' ∉ name) (plain : value.head? ≠ some '@') :
      PartOf world (name ++ '=' :: value) { name, file := none, content := Utf8.encode value }
  | upload {name path file kind : Text} {content : Bytes} (first : '=' ∉ name)
      (found : world.readFile path = some content) (last : RustText.fileName path = some file) :
      PartOf world (name ++ '=' :: '@' :: path) { name, file := some (file, kind), content }

/-- The body of a request that was built is right: it has one part for every entry, in order, and no
entry names a file that is missing. -/
structure PartsRight (world : BuildWorld) (entries : List Text) (body : RequestBody) : Prop where
  /-- One part for every entry. -/
  parts : ∃ boundary parts, body = .form boundary parts ∧ List.Forall₂ (PartOf world) entries parts
  /-- No file is missing. -/
  present : ∀ name path, '=' ∉ name → name ++ '=' :: '@' :: path ∈ entries →
    ∃ content, world.readFile path = some content

/-- The file that is opened for an entry is the one it names: the path without any `@` ends in the
component the path ends in, and that component alone leads to what the path leads to. -/
def OpensNamed (world : BuildWorld) (entry : Text) : Prop :=
  ∀ name path, '=' ∉ name → entry = name ++ '=' :: '@' :: path →
    ∃ file, RustText.fileName (path.filter (· ≠ '@')) = some file ∧
      RustText.fileName path = some file ∧ world.readFile path = world.readFile file

section Entries

variable {world : BuildWorld}

/-- An entry is split in one way. -/
theorem entry_split {name other value rest : Text} (first : '=' ∉ name) (second : '=' ∉ other)
    (same : name ++ '=' :: value = other ++ '=' :: rest) : name = other ∧ value = rest := by
  have left : RustText.splitTwo '=' (name ++ '=' :: value) = some (name, value) :=
    RustText.splitTwo_first first
  have right := RustText.splitTwo_iff.mpr ⟨second, same⟩
  rw [left, Option.some.injEq, Prod.mk.injEq] at right
  exact right

/-- The part of a field. -/
theorem formPart_field {name value : Text} (first : '=' ∉ name) (plain : value.head? ≠ some '@') :
    formPart world (name ++ '=' :: value) =
      .ok { name, file := none, content := Utf8.encode value } := by
  rw [formPart, RustText.splitTwo_first first]
  exact if_neg plain

/-- The part of a file is made of the last component of the path without any `@`. -/
theorem formPart_upload {name path : Text} {part : FormPart} (first : '=' ∉ name)
    (formed : formPart world (name ++ '=' :: '@' :: path) = .ok part) :
    ∃ file kind content, RustText.fileName (path.filter (· ≠ '@')) = some file ∧
      world.readFile file = some content ∧ part = { name, file := some (file, kind), content } := by
  have start : ('@' :: path).head? = some '@' := rfl
  have dropped : ('@' :: path).filter (· ≠ '@') = path.filter (· ≠ '@') := by
    rw [List.filter_cons_of_neg]
    decide
  rw [formPart, RustText.splitTwo_first first] at formed
  dsimp only at formed
  rw [if_pos start, dropped] at formed
  cases last : RustText.fileName (path.filter (· ≠ '@')) with
  | none =>
    rw [last] at formed
    cases formed
  | some file =>
    rw [last] at formed
    dsimp only at formed
    cases found : world.readFile file with
    | none =>
      rw [found] at formed
      cases formed
    | some content =>
      rw [found] at formed
      exact ⟨file, _, content, rfl, found, (Except.ok.inj formed).symm⟩

/-- An entry that becomes a part is a field or names a file. -/
theorem entry_cases {entry : Text} {part : FormPart} (formed : formPart world entry = .ok part) :
    ∃ name value, '=' ∉ name ∧ entry = name ++ '=' :: value := by
  cases split : RustText.splitTwo '=' entry with
  | none =>
    rw [formPart, split] at formed
    cases formed
  | some pair => exact ⟨pair.1, pair.2, RustText.splitTwo_iff.mp split⟩

/-- The part of an entry that names a file. -/
theorem partOf_upload {name path : Text} {part : FormPart} (first : '=' ∉ name)
    (right : PartOf world (name ++ '=' :: '@' :: path) part) :
    ∃ file kind content, RustText.fileName path = some file ∧ world.readFile path = some content ∧
      part = { name, file := some (file, kind), content } := by
  generalize whole : name ++ '=' :: '@' :: path = entry at right
  cases right with
  | field second plain =>
    have same := entry_split first second whole
    rw [← same.2] at plain
    exact absurd rfl plain
  | upload second found last =>
    have same := entry_split first second whole
    rw [List.cons.injEq] at same
    rw [same.1, same.2.2]
    exact ⟨_, _, _, last, found, rfl⟩

/-- A part is what its entry names exactly when the file that is opened is the one it names. -/
theorem partOf_iff {entry : Text} {part : FormPart} (formed : formPart world entry = .ok part) :
    PartOf world entry part ↔ OpensNamed world entry := by
  constructor
  · rintro right name path first rfl
    obtain ⟨opened, kind, content, dropped, read, built⟩ := formPart_upload first formed
    obtain ⟨file, sort, bytes, last, found, named⟩ := partOf_upload first right
    rw [built] at named
    cases named
    exact ⟨opened, dropped, last, found.trans read.symm⟩
  · intro opens
    obtain ⟨name, value, first, rfl⟩ := entry_cases formed
    by_cases plain : value.head? ≠ some '@'
    · rw [formPart_field first plain] at formed
      rw [← Except.ok.inj formed]
      exact .field first plain
    · obtain ⟨path, rfl⟩ := List.head?_eq_some_iff.mp (not_not.mp plain)
      obtain ⟨opened, kind, content, dropped, read, built⟩ := formPart_upload first formed
      obtain ⟨file, again, last, same⟩ := opens name path first rfl
      rw [dropped, Option.some.injEq] at again
      rw [built]
      rw [← again] at last same
      exact .upload first (same.trans read) last

/-- The parts are what their entries name exactly when every entry gets the file it names. -/
theorem forall₂_partOf_iff {entries : List Text} {parts : List FormPart}
    (formed : List.Forall₂ (fun entry part => formPart world entry = .ok part) entries parts) :
    List.Forall₂ (PartOf world) entries parts ↔ ∀ entry ∈ entries, OpensNamed world entry := by
  induction formed with
  | nil => simp
  | cons head _ ih => rw [List.forall₂_cons, partOf_iff head, ih, List.forall_mem_cons]

/-- Every entry that became a part has one. -/
theorem forall₂_left {relation : Text → FormPart → Prop} {entries : List Text}
    {parts : List FormPart} (all : List.Forall₂ relation entries parts) {entry : Text}
    (member : entry ∈ entries) : ∃ part, relation entry part := by
  induction all with
  | nil => exact absurd member List.not_mem_nil
  | cons head _ ih =>
    rcases List.mem_cons.mp member with rfl | later
    · exact ⟨_, head⟩
    · exact ih later

/-- A file without a directory and without an `@` is the one that is opened. -/
theorem opensNamed_plain {name path : Text} (first : '=' ∉ name) (plain : '/' ∉ path)
    (bare : '@' ∉ path) (proper : path ≠ [] ∧ path ≠ ['.'] ∧ path ≠ ['.', '.']) :
    OpensNamed world (name ++ '=' :: '@' :: path) := by
  intro other rest second whole
  have same := (entry_split first second whole).2
  rw [List.cons.injEq] at same
  have kept : path.filter (· ≠ '@') = path := by
    apply List.filter_eq_self.mpr
    intro c member
    exact decide_eq_true fun same => bare (same ▸ member)
  have last := RustText.fileName_plain plain proper
  rw [← same.2, kept]
  exact ⟨path, last, last, rfl⟩

/-- The body of a form is made of the parts of its entries. -/
theorem buildRequest_form {cli : Cli} {uri : Uri} {request : Request} (form : cli.formOption ≠ [])
    (built : buildRequest world cli uri = .ok request) :
    ∃ parts, request.body = .form world.boundary parts ∧
      List.Forall₂ (fun entry part => formPart world entry = .ok part) cli.formOption parts := by
  obtain ⟨assembled, put, logged⟩ := bind_ok.mp built
  obtain ⟨_, _, finished⟩ := bind_ok.mp logged
  have given := (assembleRequest_method_body put).2
  rw [Except.ok.inj finished, givenBody, if_pos form] at given
  cases formed : cli.formOption.mapM (formPart world) with
  | error error =>
    rw [formed] at given
    cases given
  | ok parts =>
    rw [formed] at given
    exact ⟨parts, (Option.some.inj given).symm, mapM_ok.mp formed⟩

end Entries

/-- The parts of a form that is built are what the entries name exactly when every entry for a file
names a file whose path, without any `@`, ends in the component it ends in, and whose last component
alone leads to the same file. -/
theorem form_parts_iff (world : BuildWorld) (cli : Cli) (uri : Uri) (request : Request)
    (form : cli.formOption ≠ []) (built : buildRequest world cli uri = .ok request) :
    PartsRight world cli.formOption request.body ↔
      ∀ entry ∈ cli.formOption, OpensNamed world entry := by
  obtain ⟨parts, body, formed⟩ := buildRequest_form form built
  constructor
  · rintro ⟨⟨boundary, others, same, right⟩, _⟩
    rw [body, RequestBody.form.injEq] at same
    rw [← same.2] at right
    exact (forall₂_partOf_iff formed).mp right
  · intro opens
    have right := (forall₂_partOf_iff formed).mpr opens
    refine ⟨⟨world.boundary, parts, body, right⟩, ?_⟩
    intro name path first member
    obtain ⟨part, made⟩ := forall₂_left right member
    obtain ⟨file, kind, content, _, found, _⟩ := partOf_upload first made
    exact ⟨content, found⟩

/-! ## A file in a directory -/

/-- Two files of one name, one of them in a directory. -/
def twoFiles : BuildWorld where
  readFile path :=
    if path = "dir/a.txt".toList then some [1]
    else if path = "a.txt".toList then some [2]
    else none
  mimeOf _ := none
  boundary := "b".toList
  debugLogs := true

/-- `rcurl -F` with one entry. -/
def formCli (entry : Text) : Cli := { plainCli with formOption := [entry] }

/-- A file where the request is made is uploaded as it is named. -/
theorem form_parts_here : ∃ request,
    buildRequest twoFiles (formCli "file=@a.txt".toList) plainUri = .ok request ∧
      PartsRight twoFiles ["file=@a.txt".toList] request.body := by
  obtain ⟨request, built⟩ : ∃ request,
      buildRequest twoFiles (formCli "file=@a.txt".toList) plainUri = .ok request := ⟨_, rfl⟩
  refine ⟨request, built, ?_⟩
  refine (form_parts_iff twoFiles (formCli "file=@a.txt".toList) plainUri request
    (List.cons_ne_nil _ _) built).mpr ?_
  have here : OpensNamed twoFiles ("file".toList ++ '=' :: '@' :: "a.txt".toList) :=
    opensNamed_plain (by decide) (by decide) (by decide) (by decide)
  intro entry member
  rw [List.mem_singleton.mp member]
  exact here

/-- A file in a directory is not the one that is uploaded. -/
theorem form_uploads_other : ¬ ∀ (world : BuildWorld) (cli : Cli) (uri : Uri) (request : Request),
    cli.formOption ≠ [] → buildRequest world cli uri = .ok request →
      PartsRight world cli.formOption request.body := by
  intro right
  obtain ⟨request, built⟩ : ∃ request,
      buildRequest twoFiles (formCli "file=@dir/a.txt".toList) plainUri = .ok request := ⟨_, rfl⟩
  have form : (formCli "file=@dir/a.txt".toList).formOption ≠ [] := List.cons_ne_nil _ _
  obtain ⟨parts, body, formed⟩ := buildRequest_form form built
  obtain ⟨boundary, others, same, named⟩ := (right _ _ _ request form built).parts
  rw [body, RequestBody.form.injEq] at same
  rw [← same.2] at named
  have opens := (forall₂_partOf_iff formed).mp named _ List.mem_cons_self
  obtain ⟨file, dropped, last, read⟩ := opens "file".toList "dir/a.txt".toList (by decide) rfl
  have bare : RustText.fileName ("dir/a.txt".toList.filter (· ≠ '@')) = some "a.txt".toList := by
    decide
  rw [bare, Option.some.injEq] at dropped
  rw [← dropped] at read
  exact absurd read (by decide)

end Rcurl
