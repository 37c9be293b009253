import Rcurl.Http.EventOrder
import Rcurl.Http.SavedBody

/-!
# What a call leaves behind

A call writes to the `-o` file, or prints, for the one response that it handles, and never both; with
`-I` it does neither. However the stream of the body, the disk or the hops before it break, the file holds
the beginning of the body's data and nothing else, and a call that succeeds has left all of it:
`call_output`.
-/

namespace Rcurl

open ShellWords (Text)

/-- The data of a body before the first frame that is no data. -/
def leadingData : List BodyFrame → Bytes
  | .data chunk :: frames => chunk ++ leadingData frames
  | .trailers _ :: _ | .failure :: _ | [] => []

/-- What a call leaves in the output file and on the standard output. -/
structure CallOutput (cli : Cli) (run : List Event × Ending) : Prop where
  /-- A file is left by the one response that was handled, with the beginning of its data, all of it when
  the call succeeds. -/
  file : ∀ bytes, run.2.file = some bytes →
    cli.filePathOption.isSome = true ∧ cli.headerOption = false ∧ run.2.printed = none ∧
      ∃ response, .handled response ∈ run.1 ∧ bytes <+: leadingData response.body ∧
        ∀ answer, run.2.outcome = .ok answer → collectFrames response.body = some bytes
  /-- What is printed is the whole body of the one response that was handled, and text. -/
  printed : ∀ bytes, run.2.printed = some bytes →
    cli.filePathOption = none ∧ cli.headerOption = false ∧ run.2.file = none ∧
      ∃ response, .handled response ∈ run.1 ∧ collectFrames response.body = some bytes ∧
        (Utf8.decode bytes).isSome = true
  /-- A call with `-o` that succeeds has left a file with all of the data. -/
  saved : ∀ answer, run.2.outcome = .ok answer → cli.filePathOption.isSome = true →
    cli.headerOption = false → ∃ response bytes, .handled response ∈ run.1 ∧
      collectFrames response.body = some bytes ∧ run.2.file = some bytes
  /-- A call without it that succeeds has printed all of the data, when that is text. -/
  shown : ∀ answer, run.2.outcome = .ok answer → cli.filePathOption = none →
    cli.headerOption = false → ∃ response bytes, .handled response ∈ run.1 ∧
      collectFrames response.body = some bytes ∧
        ((Utf8.decode bytes).isSome = true → run.2.printed = some bytes)
  /-- With `-I` nothing is left and no body is printed. -/
  headOnly : cli.headerOption = true → run.2.file = none ∧ run.2.printed = none

section Saving

variable {room : Option Nat} {total : Nat}

/-- Whatever ends the loop, the file holds what was there and the beginning of the data, and all of it
when there was no error. -/
theorem downloadFrames_front (frames : List BodyFrame) : ∀ download : Download,
    (downloadFrames room total frames download).2.written <+:
        download.written ++ leadingData frames ∧
      ((downloadFrames room total frames download).1 = none →
        ∃ data, collectFrames frames = some data ∧
          (downloadFrames room total frames download).2.written = download.written ++ data) := by
  induction frames with
  | nil =>
    intro download
    exact ⟨List.prefix_append _ _, fun _ => ⟨[], rfl, (List.append_nil _).symm⟩⟩
  | cons frame frames ih =>
    intro download
    cases frame with
    | failure => exact ⟨List.prefix_append _ _, fun ended => absurd ended (Option.some_ne_none _)⟩
    | trailers headers =>
      exact ⟨List.prefix_append _ _, fun ended => absurd ended (Option.some_ne_none _)⟩
    | data chunk =>
      rw [downloadFrames, leadingData, ← List.append_assoc]
      by_cases room : fits room (download.written ++ chunk) = true
      · rw [if_pos room]
        obtain ⟨front, whole⟩ := ih (download.push total chunk)
        refine ⟨front, fun finished => ?_⟩
        obtain ⟨data, collected, written⟩ := whole finished
        refine ⟨chunk ++ data, ?_, ?_⟩
        · rw [collectFrames, collected, Option.map_some]
        · rw [written, ← List.append_assoc]
          rfl
      · rw [if_neg room]
        exact ⟨(List.take_prefix _ _).trans (List.prefix_append _ _),
          fun ended => absurd ended (Option.some_ne_none _)⟩

end Saving

/-- What is left when only the head is asked for: nothing. -/
theorem headOnly_output {cli : Cli} {events : List Event} {ending : Ending}
    (head : cli.headerOption = true) (file : ending.file = none) (printed : ending.printed = none) :
    CallOutput cli (events, ending) where
  file bytes left := by
    rw [file] at left
    contradiction
  printed bytes given := by
    rw [printed] at given
    contradiction
  saved answer _ _ plain := by
    rw [head] at plain
    contradiction
  shown answer _ _ plain := by
    rw [head] at plain
    contradiction
  headOnly _ := ⟨file, printed⟩

/-- What a call that fails at once leaves: nothing. -/
theorem failed_output (cli : Cli) (events : List Event) (error : HttpError) :
    CallOutput cli (events, Ending.failed error) where
  file _ left := absurd left.symm (Option.some_ne_none _)
  printed _ given := absurd given.symm (Option.some_ne_none _)
  saved answer succeeds := by contradiction
  shown answer succeeds := by contradiction
  headOnly _ := ⟨rfl, rfl⟩

/-- A download that starts leaves what was written, and succeeds only with all of the data. -/
theorem saveBody_written {hopWorld : HopWorld} {path : Text} (response : Response)
    (opened : ¬ hopWorld.openFile path = false) :
    ∃ written, (saveBody hopWorld path response).file = some written ∧
      (saveBody hopWorld path response).printed = none ∧ written <+: leadingData response.body ∧
        ∀ answer, (saveBody hopWorld path response).outcome = .ok answer →
          collectFrames response.body = some written := by
  obtain ⟨front, whole⟩ := @downloadFrames_front hopWorld.room ((declaredLength response).getD 0)
    response.body {}
  rw [saveBody, if_neg opened]
  refine ⟨_, rfl, rfl, front, fun answer succeeds => ?_⟩
  dsimp only at succeeds
  cases ends : (downloadFrames hopWorld.room ((declaredLength response).getD 0) response.body {}).1 with
  | some error =>
    rw [ends] at succeeds
    contradiction
  | none =>
    obtain ⟨data, collected, written⟩ := whole ends
    rw [collected, written]
    rfl

/-- What a download leaves. -/
theorem saveBody_output (hopWorld : HopWorld) {cli : Cli} {events : List Event} {path : Text}
    {response : Response} (handled : .handled response ∈ events) (head : cli.headerOption = false)
    (given : cli.filePathOption = some path) :
    CallOutput cli (events, saveBody hopWorld path response) := by
  by_cases closed : hopWorld.openFile path = false
  · rw [saveBody, if_pos closed]
    exact failed_output cli events _
  · obtain ⟨written, file, printed, front, complete⟩ := saveBody_written response closed
    constructor
    · intro bytes left
      obtain rfl : written = bytes := Option.some.inj (file.symm.trans left)
      exact ⟨by rw [given]; rfl, head, printed, response, handled, front, complete⟩
    · intro bytes shown
      exact absurd (printed.symm.trans shown).symm (Option.some_ne_none bytes)
    · exact fun answer succeeds _ _ => ⟨response, written, handled, complete answer succeeds, file⟩
    · intro answer _ absent
      rw [given] at absent
      contradiction
    · intro asked
      rw [head] at asked
      contradiction

/-- What a body on the terminal leaves. -/
theorem printBody_output (hopWorld : HopWorld) {cli : Cli} {events : List Event}
    {response : Response} (handled : .handled response ∈ events) (head : cli.headerOption = false)
    (absent : cli.filePathOption = none) :
    CallOutput cli (events, printBody hopWorld response) := by
  rw [printBody]
  cases collected : collectFrames response.body with
  | none => exact failed_output cli events _
  | some bytes =>
    simp only
    by_cases large : (declaredLength response).any (1024 * 1024 * 100 < ·) = true
    · rw [if_pos large]
      exact failed_output cli events _
    · rw [if_neg large]
      constructor
      · exact fun left some => absurd some.symm (Option.some_ne_none left)
      · intro printed given
        obtain ⟨text, decoded, rfl⟩ := Option.map_eq_some_iff.mp given
        exact ⟨absent, head, rfl, response, handled, collected, by rw [decoded]; rfl⟩
      · intro answer _ given
        rw [absent] at given
        contradiction
      · intro answer _ _ _
        refine ⟨response, bytes, handled, collected, fun text => ?_⟩
        obtain ⟨found, decoded⟩ := Option.isSome_iff_exists.mp text
        show (Utf8.decode bytes).map (fun _ => bytes) = some bytes
        rw [decoded]
        rfl
      · intro asked
        rw [head] at asked
        contradiction

/-- What handling a response leaves. -/
theorem handleResponse_output (hopWorld : HopWorld) (cli : Cli) {events : List Event}
    {response : Response} (handled : .handled response ∈ events) :
    CallOutput cli (events, handleResponse hopWorld cli response) := by
  rw [handleResponse]
  cases head : cli.headerOption with
  | true =>
    rw [if_pos rfl]
    split_ifs with illegible
    · exact failed_output cli events _
    · exact headOnly_output head rfl rfl
  | false =>
    rw [if_neg Bool.false_ne_true]
    cases path : cli.filePathOption with
    | some name => exact saveBody_output hopWorld handled head path
    | none => exact printBody_output hopWorld handled head path

/-- A call leaves the data of the one response that it handles, or its beginning, and nothing else,
whatever the servers, the streams and the disk do; when it succeeds it has left or printed all of it. -/
theorem call_output {Url : Type} (urls : UrlOps Url) (world : World) (cli : Cli) :
    CallOutput cli (httpRequestWithRedirects urls world cli) := by
  rcases call_ends urls world cli with ⟨error, failed⟩ | ⟨past, response, handled, same⟩
  · have output := failed_output cli (httpRequestWithRedirects urls world cli).1 error
    rw [← failed] at output
    exact output
  · have output := handleResponse_output (world past) cli handled
    rw [← same] at output
    exact output

end Rcurl
