import Rcurl.Ftp.Success

/-!
# The bytes of a range

`output` cuts the ranges that `-r` asks for out of a listing. The library's ranges are inclusive, the
code's slices are not: every range loses its last byte, so that what is emitted of a listing that is not
empty is never what is asked for, `output_never_emits`. The slices themselves stay inside the listing.
-/

namespace Rcurl

open ShellWords (Text)
open Session (Program)

/-- The bytes that a run of `output` prints, or writes to the file. -/
def emittedBy (run : FtpRun) : Option Bytes :=
  match run.2 with
  | .ok (some printed) => some printed
  | .ok none | .error _ =>
    run.1.findSome? fun step => match step with
      | .writeAll _ content => some content
      | _ => none

/-- A run emits the inclusive ranges of a listing in order, and no slice panics. -/
structure EmitsRanges (item : Bytes) (list : List (Nat × Nat)) (run : FtpRun) : Prop where
  /-- No slice is out of bounds. -/
  calm : run.2 ≠ .error .panicked
  /-- What goes out are the ranges, one behind the other. -/
  emitted : emittedBy run = some (list.map (inclusiveRange item)).flatten

section Output

variable {ranges : RangeHeader} {world : FtpWorld} {cli : Cli} {item : Bytes} {range : Text}
  {list : List (Nat × Nat)}

/-- What is cut out of a listing when the ranges are valid. -/
theorem run_cutRanges_valid (asked : cli.rangeOption = some range)
    (valid : ranges.validate (rangeHeaderText range) item.length = some list) :
    Program.run world (cutRanges ranges cli item) =
      ([], .ok (list.map (cutRange item)).flatten) := by
  rw [run_cutRanges, asked]
  simp only [valid]

/-- `output` does not panic, and emits nothing or the ranges without their last bytes. -/
theorem output_cuts (world : FtpWorld) (asked : cli.rangeOption = some range)
    (valid : ranges.validate (rangeHeaderText range) item.length = some list) :
    (Program.run world (output ranges cli item)).2 ≠ .error .panicked ∧
      ∀ bytes, emittedBy (Program.run world (output ranges cli item)) = some bytes →
        bytes = (list.map (cutRange item)).flatten := by
  rw [output, Session.run_bind_ok (run_cutRanges_valid asked valid)]
  cases cli.filePathOption with
  | none =>
    refine ⟨by simp, ?_⟩
    intro bytes emitted
    exact (Option.some.inj emitted).symm
  | some path =>
    simp only [attemptStep, Session.run_demand_bind, Session.run_ignore_bind, Session.run_pure,
      List.nil_append]
    cases world (.openOutput path) with
    | none =>
      refine ⟨by simp, ?_⟩
      intro bytes emitted
      simp [emittedBy] at emitted
    | some opened =>
      refine ⟨by simp, ?_⟩
      intro bytes emitted
      simp [emittedBy] at emitted
      exact emitted.symm

end Output

/-- For every listing with a byte, and every range that is valid for it, what is emitted is not the
ranges: no slice panics, but each range is emitted without its last byte, if anything is. -/
theorem output_never_emits (ranges : RangeHeader) (world : FtpWorld) (cli : Cli) (item : Bytes)
    (range : Text) (list : List (Nat × Nat)) (asked : cli.rangeOption = some range)
    (valid : ranges.validate (rangeHeaderText range) item.length = some list) :
    (item ≠ [] → ¬ EmitsRanges item list (Program.run world (output ranges cli item))) ∧
      (Program.run world (output ranges cli item)).2 ≠ .error .panicked ∧
        ∀ bytes, emittedBy (Program.run world (output ranges cli item)) = some bytes →
          bytes = (list.map (cutRange item)).flatten := by
  have cuts := output_cuts world asked valid
  refine ⟨?_, cuts⟩
  intro some_item emits
  exact some_item ((ranges_eq_cut_iff valid).mp (cuts.2 _ emits.emitted))

/-! ## Two bytes -/

/-- The header `bytes=0-1`, and no other. -/
def firstTwo : RangeHeader where
  validate text length := if text = "bytes=0-1".toList ∧ 1 < length then some [(0, 1)] else none
  some_range := by
    intro text length ranges valid
    rw [Option.ite_none_right_eq_some, Option.some.injEq] at valid
    rw [← valid.2]
    exact List.cons_ne_nil _ _
  inside := by
    intro text length ranges _ valid range member
    rw [Option.ite_none_right_eq_some, Option.some.injEq] at valid
    rw [← valid.2, List.mem_singleton] at member
    rw [member]
    exact ⟨Nat.zero_le 1, valid.1.2⟩
  nothing := by
    intro text ranges valid
    rw [if_neg fun fits => Nat.not_lt_zero 1 fits.2] at valid
    contradiction

/-- `-r 0-1`. -/
def firstTwoCli : Cli := { rangeOption := some "0-1".toList }

/-- Of three bytes, `-r 0-1` does not print the first two. -/
theorem output_first_two : ¬ ∀ (world : FtpWorld) (cli : Cli) (item : Bytes) (range : Text)
    (list : List (Nat × Nat)), cli.rangeOption = some range →
    firstTwo.validate (rangeHeaderText range) item.length = some list →
      EmitsRanges item list (Program.run world (output firstTwo cli item)) := by
  intro emits
  have two := (emits refusingWorld firstTwoCli [97, 98, 99] "0-1".toList [(0, 1)] rfl
    (by decide)).emitted
  exact absurd two (by decide)

/-- What it prints lacks the second. -/
theorem output_first_one :
    emittedBy (Program.run refusingWorld (output firstTwo firstTwoCli [97, 98, 99])) = some [97] ∧
      ¬ EmitsRanges [97, 98, 99] [(0, 1)]
        (Program.run refusingWorld (output firstTwo firstTwoCli [97, 98, 99])) :=
  ⟨by decide, (output_never_emits firstTwo refusingWorld firstTwoCli [97, 98, 99] "0-1".toList
    [(0, 1)] rfl (by decide)).1 (by decide)⟩

end Rcurl
