import Mathlib.Data.List.Induction
import Rcurl.Cli.Parser

/-!
# Runs of the parser

A successful parse without a subcommand is a run of steps, each consuming one or two words and
changing the record in one place. `ParseStep` says everything a step can do, so a fact about
every parse is a fact about one step. The forward lemmas read the words of one option at a time.
-/

namespace Rcurl

open ShellWords (Text)

/-- One step of the parser on the main command line: the record, the words consumed, the next
record. -/
inductive ParseStep : Cli → List Text → Cli → Prop
  /-- An option and its value. -/
  | value {cli next : Cli} {word value : Text} (arg : ValueArg)
    (stored : arg.store value cli = some next) : ParseStep cli [word, value] next
  /-- A flag. -/
  | flag {cli next : Cli} {word : Text} (arg : FlagArg) (stored : arg.store cli = some next) :
    ParseStep cli [word] next
  /-- The positional URL. -/
  | url {cli next : Cli} {word : Text} (stored : storeUrl word cli = some next) :
    ParseStep cli [word] next
  /-- `--`, which changes nothing. -/
  | escape {cli : Cli} {word : Text} : ParseStep cli [word] cli

/-- A run of steps over a word list. -/
inductive ParseRun : Cli → List Text → Cli → Prop
  /-- No words are left. -/
  | done {cli : Cli} : ParseRun cli [] cli
  /-- One step, then the rest. -/
  | step {cli next last : Cli} {used rest : List Text} (head : ParseStep cli used next)
    (tail : ParseRun next rest last) : ParseRun cli (used ++ rest) last

/-- The words after `--` are a run of positional steps. -/
theorem trailWords_run (words : List Text) : ∀ {cli last : Cli},
    trailWords words cli = some last → ParseRun cli words last := by
  induction words with
  | nil =>
    intro cli last parsed
    rw [trailWords, Option.some.injEq] at parsed
    rw [parsed]
    exact .done
  | cons word words ih =>
    intro cli last parsed
    rw [trailWords, Option.bind_eq_some_iff] at parsed
    obtain ⟨next, stored, later⟩ := parsed
    exact .step (.url stored) (ih later)

/-- A subcommand leaves a quick command behind. -/
theorem parseSubcommand_quickCmd {name : Subcommand} {words : List Text} {cli last : Cli}
    (parsed : parseSubcommand name words cli = some last) : last.quickCmd ≠ none := by
  rw [parseSubcommand, Option.bind_eq_some_iff] at parsed
  obtain ⟨found, _, built⟩ := parsed
  rw [Option.map_eq_some_iff] at built
  obtain ⟨quickCmd, _, rfl⟩ := built
  exact Option.some_ne_none quickCmd

/-- A parse that ends without a quick command is a run of steps. -/
theorem parseWords_run (words : List Text) : ∀ {cli last : Cli},
    parseWords words cli = some last → last.quickCmd = none → ParseRun cli words last := by
  induction words using List.twoStepInduction with
  | nil =>
    intro cli last parsed _
    rw [parseWords, Option.some.injEq] at parsed
    rw [parsed]
    exact .done
  | singleton word =>
    intro cli last parsed request
    rw [parseWords] at parsed
    split at parsed
    · exact absurd request (parseSubcommand_quickCmd parsed)
    · exact .step .escape (trailWords_run [] parsed)
    · contradiction
    · obtain ⟨next, stored, later⟩ := Option.bind_eq_some_iff.mp parsed
      rw [parseWords, Option.some.injEq] at later
      exact .step (.flag _ stored) (later ▸ .done)
    · contradiction
    · obtain ⟨next, stored, later⟩ := Option.bind_eq_some_iff.mp parsed
      rw [parseWords, Option.some.injEq] at later
      exact .step (.url stored) (later ▸ .done)
  | cons_cons word value words ih later =>
    intro cli last parsed request
    rw [parseWords] at parsed
    split at parsed
    · exact absurd request (parseSubcommand_quickCmd parsed)
    · exact .step .escape (trailWords_run (value :: words) parsed)
    · obtain ⟨next, stored, tail⟩ := Option.bind_eq_some_iff.mp parsed
      exact .step (.value _ stored) (ih tail request)
    · obtain ⟨next, stored, tail⟩ := Option.bind_eq_some_iff.mp parsed
      exact .step (.flag _ stored) (later _ tail request)
    · contradiction
    · obtain ⟨next, stored, tail⟩ := Option.bind_eq_some_iff.mp parsed
      exact .step (.url stored) (later _ tail request)

/-- What a single-valued store does. -/
theorem once_eq_some {α : Type} {current : Option α} {updated next : Cli} :
    once current updated = some next ↔ current = none ∧ updated = next := by
  cases current <;> simp [once]

/-- What raising a flag does. -/
theorem raise_eq_some {current : Bool} {updated next : Cli} :
    raise current updated = some next ↔ current = false ∧ updated = next := by
  cases current <;> simp [raise]

/-- A method once stored is kept by every step. -/
theorem ParseStep.method_kept {cli next : Cli} {used : List Text} (taken : ParseStep cli used next)
    {method : Text} (present : cli.methodOption = some method) :
    next.methodOption = some method := by
  cases taken with
  | value arg stored =>
    cases arg <;> simp only [ValueArg.store, once_eq_some, Option.some.injEq] at stored <;>
      grind
  | flag arg stored =>
    cases arg <;> simp only [FlagArg.store, raise_eq_some, Option.some.injEq] at stored <;>
      grind
  | url stored =>
    rw [storeUrl, once_eq_some] at stored
    rw [← stored.2]
    exact present
  | escape => exact present

/-- A method once stored is kept to the end of the run. -/
theorem ParseRun.method_kept {cli last : Cli} {words : List Text} (run : ParseRun cli words last)
    {method : Text} (present : cli.methodOption = some method) :
    last.methodOption = some method := by
  induction run with
  | done => exact present
  | step head _ ih => exact ih (head.method_kept present)

/-- A step leaves the URL alone or takes it from the words it consumes. -/
theorem ParseStep.url_source {cli next : Cli} {used : List Text} (taken : ParseStep cli used next)
    {url : Text} (present : next.url = some url) : cli.url = some url ∨ url ∈ used := by
  cases taken with
  | value arg stored =>
    cases arg <;> simp only [ValueArg.store, once_eq_some, Option.some.injEq] at stored <;>
      grind
  | flag arg stored =>
    cases arg <;> simp only [FlagArg.store, raise_eq_some, Option.some.injEq] at stored <;>
      grind
  | url stored =>
    rw [storeUrl, once_eq_some] at stored
    rw [← stored.2, Option.some.injEq] at present
    exact .inr (by simp [present])
  | escape => exact .inl present

/-- The URL of a parse is one of its words. -/
theorem ParseRun.url_source {cli last : Cli} {words : List Text} (run : ParseRun cli words last)
    {url : Text} (present : last.url = some url) : cli.url = some url ∨ url ∈ words := by
  induction run with
  | done => exact .inl present
  | step head _ ih =>
    rcases ih present with earlier | later
    · exact (head.url_source earlier).imp_right (List.mem_append_left _)
    · exact .inr (List.mem_append_right _ later)

end Rcurl
