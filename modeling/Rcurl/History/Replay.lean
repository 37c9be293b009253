import Rcurl.Cli.ParserRuns
import Rcurl.History.Command

/-!
# Replaying a recorded request

`interactive_mode` splits the selected line with `shell_words::split` and parses the words as a
`Cli`. For a request line the method and the URL are the only values written bare, so they decide
alone whether the line reads back as the command line it was written from: `replay_request_iff`.
The harder direction weighs separators and comment marks. A parse cannot hold more of them than
its words, a splitting no more than its text, and the line holds exactly those of the record, so
a value that needs any of its own to be skipped cannot come back.
-/

namespace Rcurl

open ShellWords

/-- `interactive_mode` up to the parsed command line: split the line, parse the words. -/
def replay (command : Text) : Option Cli := (split command).bind Cli.tryParseFrom

/-- The words that clap takes for a subcommand or its built-in help. -/
def reservedWords : List Text := "help".toList :: subcommandSpellings.map Prod.fst

/-- A request whose recorded line reads back: the method, if any, is plain; the URL splits to
itself, is no subcommand name and no dashed word. -/
def ReplayableRequest (cli : Cli) (url : Text) : Prop :=
  (∀ method, cli.methodOption = some method → Plain method) ∧ SelfWord url ∧
    url ∉ reservedWords ∧ isDashed url = false

/-! ## Reading the written words -/

/-- The words of one option are stored in one field, whatever the value. -/
theorem parse_valueWords {flag : Text} {arg : ValueArg} (spelled : roleOf flag = .value arg)
    (set : Cli → Option Text → Cli) {cli : Cli} (unset : set cli none = cli)
    (stores : ∀ value, arg.store value cli = some (set cli (some value))) (value : Option Text)
    (rest : List Text) :
    parseWords (valueWords flag value ++ rest) cli = parseWords rest (set cli value) := by
  cases value with
  | none => rw [unset]; rfl
  | some value =>
    rw [valueWords, List.cons_append, List.cons_append, parseWords, spelled]
    simp only [stores, Option.bind_some, List.nil_append]

/-- The words of a repeatable option are appended in order. -/
theorem parse_eachWords {flag : Text} {arg : ValueArg} (spelled : roleOf flag = .value arg)
    (set : Cli → List Text → Cli) (get : Cli → List Text)
    (stores : ∀ value cli, arg.store value cli = some (set cli (get cli ++ [value])))
    (lens : ∀ cli values, get (set cli values) = values)
    (same : ∀ cli, set cli (get cli) = cli)
    (again : ∀ cli first second, set (set cli first) second = set cli second)
    (values : List Text) (rest : List Text) : ∀ cli,
    parseWords (eachWords flag values ++ rest) cli =
      parseWords rest (set cli (get cli ++ values)) := by
  induction values with
  | nil =>
    intro cli
    rw [List.append_nil, same]
    rfl
  | cons value values ih =>
    intro cli
    rw [eachWords, List.flatMap_cons, ← eachWords, List.append_assoc, List.cons_append,
      List.cons_append, parseWords, spelled]
    simp only [stores, Option.bind_some, List.nil_append]
    rw [ih, lens, again, List.append_assoc]
    rfl

/-- A flag is raised when it is written. -/
theorem parse_flagWords {flag : Text} {arg : FlagArg} (spelled : roleOf flag = .flag arg)
    (set : Cli → Bool → Cli) {cli : Cli} (unset : set cli false = cli)
    (stores : arg.store cli = some (set cli true)) (present : Bool) (rest : List Text) :
    parseWords (flagWords flag present ++ rest) cli = parseWords rest (set cli present) := by
  cases present with
  | false => rw [unset]; rfl
  | true =>
    rw [flagWords, if_pos rfl, List.singleton_append, parseWords, spelled]
    simp only [stores, Option.bind_some]

/-- Counting up to a `u8` level reaches exactly that level. -/
theorem parse_levels (levels : Nat) : ∀ (cli : Cli) (rest : List Text),
    cli.verbosity.toNat + levels < 256 →
      parseWords (List.replicate levels "-v".toList ++ rest) cli =
        parseWords rest { cli with verbosity := UInt8.ofNat (cli.verbosity.toNat + levels) } := by
  induction levels with
  | zero =>
    intro cli rest _
    simp
  | succ levels ih =>
    intro cli rest fits
    have raised : (saturatingIncrement cli.verbosity).toNat = cli.verbosity.toNat + 1 := by
      have below : cli.verbosity ≠ 255 := by
        intro same
        rw [same] at fits
        have full : (255 : UInt8).toNat = 255 := rfl
        omega
      rw [saturatingIncrement, if_neg below, UInt8.toNat_add]
      exact Nat.mod_eq_of_lt (by have one : (1 : UInt8).toNat = 1 := rfl; omega)
    have later := ih { cli with verbosity := saturatingIncrement cli.verbosity } rest
      (by rw [raised]; omega)
    rw [List.replicate_succ, List.cons_append, parseWords,
      show roleOf "-v".toList = .flag .verbosity by decide]
    simp only [FlagArg.store, Option.bind_some]
    rw [later, raised, Nat.add_assoc, Nat.add_comm 1]

/-- Every option is spelled with a dash. -/
theorem lookup_bare {α : Type} {word : Text} (bare : isDashed word = false)
    (spellings : List (Text × α)) (dashed : ∀ entry ∈ spellings, isDashed entry.1 = true) :
    spellings.lookup word = none := by
  rw [List.lookup_eq_none_iff]
  intro entry member
  have marked := dashed entry member
  rw [bne_iff_ne]
  intro same
  rw [same, marked] at bare
  exact Bool.noConfusion bare

/-- A word is no subcommand name exactly when it looks up to none. -/
theorem lookup_subcommand_none {word : Text} :
    subcommandSpellings.lookup word = none ↔ word ∉ subcommandSpellings.map Prod.fst := by
  rw [List.lookup_eq_none_iff]
  constructor
  · intro apart member
    obtain ⟨entry, listed, same⟩ := List.mem_map.mp member
    exact absurd same.symm (bne_iff_ne.mp (apart entry listed))
  · intro absent entry listed
    rw [bne_iff_ne]
    intro same
    exact absent (same ▸ List.mem_map_of_mem listed)

/-- A word is positional exactly when it is neither reserved nor dashed. -/
theorem roleOf_positional_iff {word : Text} :
    roleOf word = .positional ↔ word ∉ reservedWords ∧ isDashed word = false := by
  rw [reservedWords, List.mem_cons, not_or, ← lookup_subcommand_none]
  constructor
  · intro positional
    rw [roleOf] at positional
    split at positional
    · contradiction
    · rename_i unnamed
      split_ifs at positional with help escape dashed
      · split at positional
        · contradiction
        · split at positional <;> contradiction
      · exact ⟨⟨help, unnamed⟩, by simpa using dashed⟩
  · rintro ⟨⟨unhelped, unnamed⟩, bare⟩
    have unescaped : word ≠ "--".toList := by
      intro same
      rw [same] at bare
      exact absurd bare (by decide)
    rw [roleOf, unnamed]
    simp only [if_neg unhelped, if_neg unescaped, lookup_bare bare valueSpellings (by decide),
      lookup_bare bare flagSpellings (by decide), bare, Bool.false_eq_true, if_false]

/-- The words before the URL parse to the request without it. -/
theorem parse_optionWords (cli : Cli) (rest : List Text) (request : cli.quickCmd = none) :
    parseWords (valueWords "-X".toList cli.methodOption ++ (optionWords cli ++ rest)) {} =
      parseWords rest { cli with url := none } := by
  unfold optionWords
  simp only [List.append_assoc]
  -- each step stores one field; `dsimp only` keeps the record flat
  refine Eq.trans (parse_valueWords
    (show roleOf "-X".toList = .value .methodOption by decide)
    (fun c v => { c with methodOption := v }) rfl (fun _ => rfl) _ _) ?_
  dsimp only
  refine Eq.trans (parse_valueWords
    (show roleOf "-d".toList = .value .bodyOption by decide)
    (fun c v => { c with bodyOption := v }) rfl (fun _ => rfl) _ _) ?_
  dsimp only
  refine Eq.trans (parse_eachWords
    (show roleOf "-F".toList = .value .formOption by decide)
    (fun c v => { c with formOption := v }) Cli.formOption
    (fun _ _ => rfl) (fun _ _ => rfl) (fun _ => rfl) (fun _ _ _ => rfl) _ _ _) ?_
  dsimp only
  refine Eq.trans (parse_eachWords
    (show roleOf "-H".toList = .value .headers by decide)
    (fun c v => { c with headers := v }) Cli.headers
    (fun _ _ => rfl) (fun _ _ => rfl) (fun _ => rfl) (fun _ _ _ => rfl) _ _ _) ?_
  dsimp only
  refine Eq.trans (parse_valueWords
    (show roleOf "-c".toList = .value .certificatePathOption by decide)
    (fun c v => { c with certificatePathOption := v }) rfl (fun _ => rfl) _ _) ?_
  dsimp only
  refine Eq.trans (parse_valueWords
    (show roleOf "-u".toList = .value .authorityOption by decide)
    (fun c v => { c with authorityOption := v }) rfl (fun _ => rfl) _ _) ?_
  dsimp only
  refine Eq.trans (parse_valueWords
    (show roleOf "-A".toList = .value .userAgentOption by decide)
    (fun c v => { c with userAgentOption := v }) rfl (fun _ => rfl) _ _) ?_
  dsimp only
  refine Eq.trans (parse_valueWords
    (show roleOf "-b".toList = .value .cookieOption by decide)
    (fun c v => { c with cookieOption := v }) rfl (fun _ => rfl) _ _) ?_
  dsimp only
  refine Eq.trans (parse_valueWords
    (show roleOf "-e".toList = .value .referOption by decide)
    (fun c v => { c with referOption := v }) rfl (fun _ => rfl) _ _) ?_
  dsimp only
  refine Eq.trans (parse_valueWords
    (show roleOf "-o".toList = .value .filePathOption by decide)
    (fun c v => { c with filePathOption := v }) rfl (fun _ => rfl) _ _) ?_
  dsimp only
  refine Eq.trans (parse_valueWords
    (show roleOf "-T".toList = .value .uploadfileOption by decide)
    (fun c v => { c with uploadfileOption := v }) rfl (fun _ => rfl) _ _) ?_
  dsimp only
  refine Eq.trans (parse_valueWords
    (show roleOf "-Q".toList = .value .quoteOption by decide)
    (fun c v => { c with quoteOption := v }) rfl (fun _ => rfl) _ _) ?_
  dsimp only
  refine Eq.trans (parse_flagWords
    (show roleOf "-k".toList = .flag .skipCertificateValidate by decide)
    (fun c v => { c with skipCertificateValidate := v }) rfl rfl _ _) ?_
  dsimp only
  refine Eq.trans (parse_flagWords
    (show roleOf "-I".toList = .flag .headerOption by decide)
    (fun c v => { c with headerOption := v }) rfl rfl _ _) ?_
  dsimp only
  refine Eq.trans (parse_valueWords
    (show roleOf "-r".toList = .value .rangeOption by decide)
    (fun c v => { c with rangeOption := v }) rfl (fun _ => rfl) _ _) ?_
  dsimp only
  refine Eq.trans (parse_levels cli.verbosity.toNat _ _ (by simpa using cli.verbosity.toNat_lt)) ?_
  dsimp only
  refine Eq.trans (parse_flagWords
    (show roleOf "--http2".toList = .flag .http2 by decide)
    (fun c v => { c with http2 := v }) rfl rfl _ _) ?_
  dsimp only
  refine Eq.trans (parse_flagWords
    (show roleOf "--http2-prior-knowledge".toList = .flag .http2PriorKnowledge by decide)
    (fun c v => { c with http2PriorKnowledge := v }) rfl rfl _ _) ?_
  dsimp only
  refine Eq.trans (parse_flagWords
    (show roleOf "--noproxy".toList = .flag .noproxy by decide)
    (fun c v => { c with noproxy := v }) rfl rfl _ _) ?_
  dsimp only
  refine Eq.trans (parse_flagWords
    (show roleOf "--time".toList = .flag .time by decide)
    (fun c v => { c with time := v }) rfl rfl _ _) ?_
  dsimp only
  refine Eq.trans (parse_flagWords
    (show roleOf "--tls-info".toList = .flag .tlsInfo by decide)
    (fun c v => { c with tlsInfo := v }) rfl rfl _ _) ?_
  dsimp only
  refine Eq.trans (parse_flagWords
    (show roleOf "--cert-info".toList = .flag .certInfo by decide)
    (fun c v => { c with certInfo := v }) rfl rfl _ _) ?_
  dsimp only
  refine Eq.trans (parse_flagWords
    (show roleOf "--tls-info-json".toList = .flag .tlsInfoJson by decide)
    (fun c v => { c with tlsInfoJson := v }) rfl rfl _ _) ?_
  dsimp only
  refine Eq.trans (parse_flagWords
    (show roleOf "--cert-info-json".toList = .flag .certInfoJson by decide)
    (fun c v => { c with certInfoJson := v }) rfl rfl _ _) ?_
  dsimp only
  cases cli
  simp_all

/-- The words of a request parse back to it when its URL is read as positional. -/
theorem parse_requestWords (cli : Cli) (url : Text) (request : cli.quickCmd = none)
    (target : cli.url = some url) (positional : roleOf url = .positional) :
    parseWords (requestWords cli) {} = some cli := by
  rw [requestWords, target, Option.toList_some, parse_optionWords cli [url] request, parseWords,
    positional]
  cases cli
  simp_all [storeUrl, once, parseWords]

/-! ## Splitting the written line -/

/-- The program's name is a plain word. -/
theorem plain_program : Plain "rcurl".toList := by decide

/-- With a plain method, everything before the URL spells its words. -/
theorem line_spells (cli : Cli)
    (plain : ∀ method, cli.methodOption = some method → Plain method) :
    Spells (pushRaw "-X".toList cli.methodOption ++ pushOptions cli)
      (valueWords "-X".toList cli.methodOption ++ optionWords cli) := by
  have method : Spells (pushRaw "-X".toList cli.methodOption)
      (valueWords "-X".toList cli.methodOption) := by
    cases present : cli.methodOption with
    | none => exact .nil
    | some method =>
      have written := Spells.plain (by decide : Plain "-X".toList) (.plain (plain method present) .nil)
      rwa [List.append_nil] at written
  exact method.append (pushOptions_spells cli)

/-- With a plain method, the line splits into its words up to the URL, and the URL splits on its
own. -/
theorem split_request (cli : Cli) (url : Text) (request : cli.quickCmd = none)
    (target : cli.url = some url)
    (plain : ∀ method, cli.methodOption = some method → Plain method) :
    split (commandFromCli cli) = (split url).map
      ("rcurl".toList :: (valueWords "-X".toList cli.methodOption ++ optionWords cli) ++ ·) := by
  rw [commandFromCli_request request, target, split, plain_writes plain_program, pushUrl,
    ← List.append_assoc, (line_spells cli plain).scan_space]
  rfl

/-- The options before a URL are followed by a space. -/
theorem options_spaced (cli : Cli) {url : Text} (target : cli.url = some url) :
    ∃ rest, pushOptions cli ++ pushUrl cli.url = ' ' :: rest := by
  rw [target]
  exact (pushOptions_spells cli).spaced url

/-- The line of a request with a method splits to the program, `-X`, and whatever the bare method
and the text after it split to. -/
theorem split_method (cli : Cli) (method rest : Text) (request : cli.quickCmd = none)
    (given : cli.methodOption = some method)
    (shape : pushOptions cli ++ pushUrl cli.url = rest) :
    split (commandFromCli cli) = (split (method ++ rest)).map
      (["rcurl".toList, "-X".toList] ++ ·) := by
  have flag := Spells.plain (by decide : Plain "-X".toList) .nil
  rw [commandFromCli_request request, given, split, plain_writes plain_program, pushRaw]
  rw [shape]
  have read := flag.scan_space "rcurl".toList (method ++ rest)
  simpa [split] using read

/-! ## What a parse can hold

`marks` counts the characters a reader between words skips. -/

/-- One for a separator or a comment mark. -/
def marks (c : Char) : Nat := if isSeparator c || c == '#' then 1 else 0

/-- Every separator is a mark. -/
theorem marks_separator (c : Char) (separator : isSeparator c = true) : 1 ≤ marks c := by
  simp [marks, separator]

/-- The weight of an optional value and its flag. -/
def valueWeight (value : Option Text) : Nat := value.elim 0 fun text => 2 + cost marks text

/-- The weight of repeated values and their flags. -/
def eachWeight (values : List Text) : Nat := (values.map fun text => 2 + cost marks text).sum

/-- An option whose flag holds no mark weighs its value. -/
theorem weight_valueWords {flag : Text} (quiet : cost marks flag = 0) (value : Option Text) :
    weight marks (valueWords flag value) = valueWeight value := by
  cases value with
  | none => rfl
  | some text =>
    simp only [valueWords, weight_cons, weight_nil, quiet, valueWeight, Option.elim]
    omega

/-- Repeated options whose flag holds no mark weigh their values. -/
theorem weight_eachWords {flag : Text} (quiet : cost marks flag = 0) (values : List Text) :
    weight marks (eachWords flag values) = eachWeight values := by
  induction values with
  | nil => rfl
  | cons text values ih =>
    rw [eachWords, List.flatMap_cons, ← eachWords, weight_append, ih, weight_cons, weight_cons,
      weight_nil, quiet]
    simp only [eachWeight, List.map_cons, List.sum_cons]
    omega

/-- A flag that holds no mark weighs one when it is set. -/
theorem weight_flagWords {flag : Text} (quiet : cost marks flag = 0) (present : Bool) :
    weight marks (flagWords flag present) = present.toNat := by
  cases present with
  | false => rfl
  | true => simp [flagWords, quiet]

/-- A repeated flag that holds no mark weighs its count. -/
theorem weight_levels {flag : Text} (quiet : cost marks flag = 0) (levels : Nat) :
    weight marks (List.replicate levels flag) = levels := by
  induction levels with
  | zero => rfl
  | succ levels ih =>
    rw [List.replicate_succ, weight_cons, ih, quiet]
    omega

/-- The marks of a request, field by field. -/
theorem weight_requestWords (cli : Cli) :
    weight marks (requestWords cli) =
      valueWeight cli.methodOption + (valueWeight cli.bodyOption + (eachWeight cli.formOption +
      (eachWeight cli.headers + (valueWeight cli.certificatePathOption +
      (valueWeight cli.authorityOption + (valueWeight cli.userAgentOption +
      (valueWeight cli.cookieOption + (valueWeight cli.referOption +
      (valueWeight cli.filePathOption + (valueWeight cli.uploadfileOption +
      (valueWeight cli.quoteOption + (cli.skipCertificateValidate.toNat +
      (cli.headerOption.toNat + (valueWeight cli.rangeOption + (cli.verbosity.toNat +
      (cli.http2.toNat + (cli.http2PriorKnowledge.toNat + (cli.noproxy.toNat + (cli.time.toNat +
      (cli.tlsInfo.toNat + (cli.certInfo.toNat + (cli.tlsInfoJson.toNat +
      cli.certInfoJson.toNat)))))))))))))))))))))) + weight marks cli.url.toList := by
  simp only [requestWords, optionWords, weight_append,
    weight_valueWords (show cost marks "-X".toList = 0 by decide),
    weight_valueWords (show cost marks "-d".toList = 0 by decide),
    weight_eachWords (show cost marks "-F".toList = 0 by decide),
    weight_eachWords (show cost marks "-H".toList = 0 by decide),
    weight_valueWords (show cost marks "-c".toList = 0 by decide),
    weight_valueWords (show cost marks "-u".toList = 0 by decide),
    weight_valueWords (show cost marks "-A".toList = 0 by decide),
    weight_valueWords (show cost marks "-b".toList = 0 by decide),
    weight_valueWords (show cost marks "-e".toList = 0 by decide),
    weight_valueWords (show cost marks "-o".toList = 0 by decide),
    weight_valueWords (show cost marks "-T".toList = 0 by decide),
    weight_valueWords (show cost marks "-Q".toList = 0 by decide),
    weight_flagWords (show cost marks "-k".toList = 0 by decide),
    weight_flagWords (show cost marks "-I".toList = 0 by decide),
    weight_valueWords (show cost marks "-r".toList = 0 by decide),
    weight_levels (show cost marks "-v".toList = 0 by decide),
    weight_flagWords (show cost marks "--http2".toList = 0 by decide),
    weight_flagWords (show cost marks "--http2-prior-knowledge".toList = 0 by decide),
    weight_flagWords (show cost marks "--noproxy".toList = 0 by decide),
    weight_flagWords (show cost marks "--time".toList = 0 by decide),
    weight_flagWords (show cost marks "--tls-info".toList = 0 by decide),
    weight_flagWords (show cost marks "--cert-info".toList = 0 by decide),
    weight_flagWords (show cost marks "--tls-info-json".toList = 0 by decide),
    weight_flagWords (show cost marks "--cert-info-json".toList = 0 by decide)]
  omega

/-- One more repeated value. -/
theorem eachWeight_append (values : List Text) (text : Text) :
    eachWeight (values ++ [text]) = eachWeight values + (2 + cost marks text) := by
  simp [eachWeight]

/-- Counting adds one level or stays. -/
theorem saturatingIncrement_le (count : UInt8) :
    (saturatingIncrement count).toNat ≤ count.toNat + 1 := by
  rw [saturatingIncrement]
  split
  · exact Nat.le_succ_of_le (Nat.le_of_eq (by rename_i full; rw [full]))
  · rw [UInt8.toNat_add]
    exact Nat.mod_le _ _

/-- A step stores no more marks than it consumes. -/
theorem ParseStep.weight_le {cli next : Cli} {used : List Text} (taken : ParseStep cli used next) :
    weight marks (requestWords next) ≤ weight marks (requestWords cli) + weight marks used := by
  rw [weight_requestWords, weight_requestWords]
  cases taken with
  | value arg stored =>
    rw [weight_cons, weight_cons, weight_nil]
    cases arg <;> simp only [ValueArg.store, once_eq_some, Option.some.injEq] at stored <;>
      first
      | obtain ⟨absent, rfl⟩ := stored
        simp only [absent, valueWeight, Option.elim]
        omega
      | subst stored
        simp only [eachWeight_append]
        omega
  | flag arg stored =>
    rw [weight_cons, weight_nil]
    cases arg <;> simp only [FlagArg.store, raise_eq_some, Option.some.injEq] at stored <;>
      first
      | obtain ⟨absent, rfl⟩ := stored
        simp only [absent, Bool.toNat_true, Bool.toNat_false]
        omega
      | subst stored
        have bound := saturatingIncrement_le cli.verbosity
        dsimp only
        omega
  | url stored =>
    rw [storeUrl, once_eq_some] at stored
    obtain ⟨absent, rfl⟩ := stored
    simp only [absent, Option.toList, weight_cons, weight_nil]
    omega
  | escape => exact Nat.le_add_right _ _

/-- A run stores no more marks than its words hold. -/
theorem ParseRun.weight_le {cli last : Cli} {words : List Text} (run : ParseRun cli words last) :
    weight marks (requestWords last) ≤ weight marks (requestWords cli) + weight marks words := by
  induction run with
  | done => exact Nat.le_add_right _ _
  | step head _ ih =>
    have first := head.weight_le
    rw [weight_append]
    omega

/-! ## The requests whose line reads back -/

/-- The first word after `-X` of a line that reads back is the method. -/
theorem method_word {cli : Cli} {method : Text} {words : List Text} (request : cli.quickCmd = none)
    (given : cli.methodOption = some method)
    (parsed : parseWords ("-X".toList :: words) {} = some cli) :
    ∃ others, words = method :: others := by
  rw [parseWords, show roleOf "-X".toList = .value .methodOption by decide] at parsed
  cases words with
  | nil => contradiction
  | cons word others =>
    have tail : parseWords others { methodOption := some word } = some cli := parsed
    have kept := (parseWords_run others tail request).method_kept rfl
    rw [given, Option.some.injEq] at kept
    exact ⟨others, by rw [kept]⟩

/-- A recorded request that reads back has a plain method, when anything follows it. -/
theorem plain_of_replay (cli : Cli) (method rest : Text) (request : cli.quickCmd = none)
    (given : cli.methodOption = some method)
    (shape : pushOptions cli ++ pushUrl cli.url = ' ' :: rest)
    (back : replay (commandFromCli cli) = some cli) : Plain method := by
  rw [replay, split_method cli method _ request given shape, Option.bind_map,
    Option.bind_eq_some_iff] at back
  obtain ⟨words, read, parsed⟩ := back
  have parsedWords : parseWords ("-X".toList :: words) {} = some cli := parsed
  have held := (parseWords_run _ parsedWords request).weight_le
  obtain ⟨others, rfl⟩ := method_word request given parsedWords
  -- the record needs every mark of the line
  apply plain_of_first marks_separator (by decide) read
  have target : cost marks (pushUrl cli.url) = weight marks cli.url.toList := by
    cases cli.url with
    | none => rfl
    | some url =>
      rw [pushUrl, cost_cons, Option.toList_some, weight_cons, weight_nil]
      rfl
  have line : cost marks (pushOptions cli ++ pushUrl cli.url) =
      weight marks (optionWords cli) + weight marks cli.url.toList := by
    rw [cost_append, (pushOptions_spells cli).cost_eq rfl rfl rfl, target]
  have quiet : cost marks "-X".toList = 0 := by decide
  rw [shape] at line
  rw [requestWords, given, valueWords] at held
  simp only [weight_append, weight_cons, weight_nil, quiet,
    show weight marks (requestWords {}) = 0 from rfl] at held
  rw [cost_append, line, weight_cons]
  omega

/-- A flag leaves the URL alone. -/
theorem FlagArg.store_url {arg : FlagArg} {cli next : Cli} (stored : arg.store cli = some next) :
    next.url = cli.url := by
  cases arg <;> simp only [FlagArg.store, raise_eq_some, Option.some.injEq] at stored <;> grind

/-- A recorded request with a plain method that reads back has a URL that splits to itself and
is positional. -/
theorem url_of_replay (cli : Cli) (url : Text) (request : cli.quickCmd = none)
    (target : cli.url = some url)
    (plain : ∀ method, cli.methodOption = some method → Plain method)
    (back : replay (commandFromCli cli) = some cli) :
    SelfWord url ∧ roleOf url = .positional := by
  rw [replay, split_request cli url request target plain, Option.bind_map,
    Option.bind_eq_some_iff] at back
  obtain ⟨words, read, parsed⟩ := back
  have tail : parseWords words { cli with url := none } = some cli := by
    rw [← parse_optionWords cli words request, ← List.append_assoc]
    exact parsed
  have source := (parseWords_run words tail request).url_source target
  have member : url ∈ words := source.resolve_left (by simp)
  obtain rfl := split_eq_of_mem read member
  refine ⟨(split_eq_self_iff url).mp read, ?_⟩
  rw [parseWords] at tail
  split at tail
  · exact absurd request (parseSubcommand_quickCmd tail)
  · rw [trailWords, Option.some.injEq] at tail
    rw [← tail] at target
    contradiction
  · contradiction
  · obtain ⟨next, stored, last⟩ := Option.bind_eq_some_iff.mp tail
    rw [parseWords, Option.some.injEq] at last
    rw [← last, FlagArg.store_url stored] at target
    contradiction
  · contradiction
  · assumption

/-- A recorded request reads back as itself exactly when its method and URL need no quoting,
and its URL is a word that clap takes for a URL. Every other field may hold any text. -/
theorem replay_request_iff (cli : Cli) (url : Text) (request : cli.quickCmd = none)
    (target : cli.url = some url) :
    replay (commandFromCli cli) = some cli ↔ ReplayableRequest cli url := by
  constructor
  · intro back
    obtain ⟨rest, shape⟩ := options_spaced cli target
    have plain := fun method given => plain_of_replay cli method rest request given shape back
    have shape := url_of_replay cli url request target plain back
    exact ⟨plain, shape.1, roleOf_positional_iff.mp shape.2⟩
  · rintro ⟨plain, self, free⟩
    rw [replay, split_request cli url request target plain, (split_eq_self_iff url).mpr self,
      Option.map_some, Option.bind_some]
    have words := parse_requestWords cli url request target (roleOf_positional_iff.mpr free)
    rw [requestWords, target, Option.toList_some, ← List.append_assoc] at words
    exact words

/-- The characterization at a request with a method, a body that holds a quote, and a header. -/
theorem replay_request_post :
    replay (commandFromCli
      { url := some "http://h/".toList, methodOption := some "PUT".toList,
        bodyOption := some "it's".toList, headers := ["A: b c".toList] }) =
      some { url := some "http://h/".toList, methodOption := some "PUT".toList,
             bodyOption := some "it's".toList, headers := ["A: b c".toList] } :=
  (replay_request_iff _ "http://h/".toList rfl rfl).mpr
    ⟨fun method given => by rw [← Option.some.inj given]; decide, .inl (by decide), by decide,
      by decide⟩

/-- A URL with an apostrophe opens a quote that is never closed. -/
theorem replay_apostrophe :
    replay (commandFromCli { url := some "http://example.com/it's".toList }) ≠
      some { url := some "http://example.com/it's".toList } := by
  decide

end Rcurl
