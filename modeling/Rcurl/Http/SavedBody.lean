import Rcurl.Http.HandleResponse
import Rcurl.Http.Redirects

/-!
# Saving a body and collecting it

With `-o` a body is written to the file frame by frame, without it the body is collected. Both take the
data of the frames in order, and both skip nothing of it; but the loop for the file takes trailers for an
error, where collecting drops them. `saved_body_iff` says when the file holds what is collected.
-/

namespace Rcurl

open ShellWords (Text)

/-- The frames of a body: data, then perhaps trailers. -/
def bodyFrames (chunks : List Bytes) (trailers : Option HeaderMap) : List BodyFrame :=
  chunks.map .data ++ (trailers.map .trailers).toList

/-- The options that save a body to a file. -/
def Cli.saving (cli : Cli) (path : Text) : Cli :=
  { cli with headerOption := false, filePathOption := some path }

/-- The total of the progress bar. -/
def progressTotal (response : Response) : Nat := (declaredLength response).getD 0

/-- The positions of the progress bar while a body is saved. -/
def progressOf (world : HopWorld) (response : Response) : List Nat :=
  (downloadFrames world.room (progressTotal response) response.body {}).2.positions

/-- A body is saved as it is collected: the call succeeds, the file holds the data, which is what is
collected, and the progress never goes back and never beyond the total. -/
structure SavesBody (world : HopWorld) (cli : Cli) (path : Text) (response : Response) (data : Bytes) :
    Prop where
  /-- The response is returned without its body. -/
  succeeds : (handleResponse world (cli.saving path) response).outcome =
    .ok { response with body := [] }
  /-- The file holds the data. -/
  file : (handleResponse world (cli.saving path) response).file = some data
  /-- The data is what is collected. -/
  collected : collectFrames response.body = some data
  /-- The progress never goes back. -/
  forward : List.IsChain (· ≤ ·) (0 :: progressOf world response)
  /-- It never goes beyond the total. -/
  bounded : ∀ position ∈ progressOf world response, position ≤ progressTotal response

/-- The positions that chunks lead to. -/
def steps (total : Nat) : Nat → List Bytes → List Nat
  | _, [] => []
  | position, chunk :: chunks =>
    nextPosition total position chunk :: steps total (nextPosition total position chunk) chunks

/-- The sum of the position and the next chunk never exceeds a `u64`. -/
def NeverWraps (total position : Nat) (chunks : List Bytes) : Prop :=
  ∀ front chunk back, chunks = front ++ chunk :: back →
    min (position + front.flatten.length) total + chunk.length < 2 ^ 64

section Progress

variable {total position : Nat}

/-- No position is beyond the total. -/
theorem steps_le (chunks : List Bytes) : ∀ position, ∀ shown ∈ steps total position chunks,
    shown ≤ total := by
  induction chunks with
  | nil => exact fun position shown absent => (List.not_mem_nil absent).elim
  | cons chunk chunks ih =>
    intro position shown member
    rcases List.mem_cons.mp member with rfl | later
    · exact Nat.min_le_right _ _
    · exact ih _ shown later

/-- One step goes forward exactly when the sum does not wrap. -/
theorem le_nextPosition_iff {chunk : Bytes} (within : position ≤ total) (narrow : total < 2 ^ 64)
    (sized : chunk.length < 2 ^ 64) :
    position ≤ nextPosition total position chunk ↔ position + chunk.length < 2 ^ 64 := by
  rw [nextPosition]
  constructor
  · intro forward
    by_contra wraps
    have left : (position + chunk.length) % 2 ^ 64 = position + chunk.length - 2 ^ 64 := by
      rw [Nat.mod_eq_sub_mod (Nat.le_of_not_lt wraps)]
      apply Nat.mod_eq_of_lt
      omega
    have bound := Nat.le_trans forward (Nat.min_le_left _ _)
    omega
  · intro fits
    rw [Nat.mod_eq_of_lt fits]
    omega

/-- No chunk, no sum. -/
theorem neverWraps_nil : NeverWraps total position [] := by
  intro front chunk back same
  exact absurd same.symm (List.append_ne_nil_of_right_ne_nil front (List.cons_ne_nil chunk back))

/-- What never wraps does not wrap at the first chunk, nor behind it. -/
theorem neverWraps_cons {chunk : Bytes} {chunks : List Bytes} (within : position ≤ total) :
    NeverWraps total position (chunk :: chunks) ↔
      position + chunk.length < 2 ^ 64 ∧
        NeverWraps total (min (position + chunk.length) total) chunks := by
  constructor
  · intro never
    constructor
    · have first := never [] chunk chunks rfl
      rw [List.flatten_nil, List.length_nil, Nat.add_zero, Nat.min_eq_left within] at first
      exact first
    · intro front next back same
      have later := never (chunk :: front) next back (by rw [same, List.cons_append])
      rw [List.flatten_cons, List.length_append] at later
      omega
  · rintro ⟨first, later⟩ front next back same
    cases front with
    | nil =>
      rw [List.nil_append, List.cons.injEq] at same
      rw [← same.1, List.flatten_nil, List.length_nil, Nat.add_zero, Nat.min_eq_left within]
      exact first
    | cons head front =>
      rw [List.cons_append, List.cons.injEq] at same
      have rest := later front next back same.2
      rw [same.1] at rest
      rw [List.flatten_cons, List.length_append]
      omega

/-- The progress never goes back exactly when it never wraps. -/
theorem steps_forward_iff (narrow : total < 2 ^ 64) (chunks : List Bytes) : ∀ position ≤ total,
    (∀ chunk ∈ chunks, chunk.length < 2 ^ 64) →
      (List.IsChain (· ≤ ·) (position :: steps total position chunks) ↔
        NeverWraps total position chunks) := by
  induction chunks with
  | nil =>
    intro position within sized
    exact iff_of_true (List.IsChain.singleton position) neverWraps_nil
  | cons chunk chunks ih =>
    intro position within sized
    have first := le_nextPosition_iff within narrow (sized chunk List.mem_cons_self)
    rw [steps, List.isChain_cons_cons, first, neverWraps_cons within]
    apply and_congr_right
    intro fits
    have next : nextPosition total position chunk = min (position + chunk.length) total := by
      rw [nextPosition, Nat.mod_eq_of_lt fits]
    have later := ih (nextPosition total position chunk) (Nat.min_le_right _ _)
      fun other member => sized other (List.mem_cons_of_mem _ member)
    rw [later, next]

end Progress

section Frames

variable {room : Option Nat} {total : Nat}

/-- Nothing always fits. -/
theorem fits_nil (room : Option Nat) : fits room [] = true := by
  cases room with
  | none => rfl
  | some bound => exact decide_eq_true (Nat.zero_le bound)

/-- What fits, fits without its end. -/
theorem fits_front {front back : Bytes} (whole : fits room (front ++ back) = true) :
    fits room front = true := by
  cases room with
  | none => rfl
  | some bound =>
    have enough : (front ++ back).length ≤ bound := of_decide_eq_true whole
    rw [List.length_append] at enough
    exact decide_eq_true (Nat.le_trans (Nat.le_add_right _ _) enough)

/-- The download after some chunks. -/
def Download.pushAll (total : Nat) (chunks : List Bytes) (download : Download) : Download :=
  chunks.foldl (fun download chunk => download.push total chunk) download

/-- The chunks are written one behind the other. -/
theorem pushAll_written (total : Nat) (chunks : List Bytes) : ∀ download : Download,
    (download.pushAll total chunks).written = download.written ++ chunks.flatten := by
  induction chunks with
  | nil => exact fun download => (List.append_nil _).symm
  | cons chunk chunks ih =>
    intro download
    have later := ih (download.push total chunk)
    rw [List.flatten_cons, ← List.append_assoc]
    exact later

/-- The positions shown are the steps of the chunks. -/
theorem pushAll_positions (total : Nat) (chunks : List Bytes) : ∀ download : Download,
    (download.pushAll total chunks).positions =
      download.positions ++ steps total download.position chunks := by
  induction chunks with
  | nil => exact fun download => (List.append_nil _).symm
  | cons chunk chunks ih =>
    intro download
    have later := ih (download.push total chunk)
    have pushed : (download.push total chunk).positions =
        download.positions ++ [nextPosition total download.position chunk] := rfl
    rw [pushed, List.append_assoc] at later
    exact later

/-- Data that fits is written, and the loop goes on with what follows it. -/
theorem downloadFrames_data (total : Nat) (chunks : List Bytes) (tail : List BodyFrame) :
    ∀ download : Download,
    fits room (download.written ++ chunks.flatten) = true →
      downloadFrames room total (chunks.map .data ++ tail) download =
        downloadFrames room total tail (download.pushAll total chunks) := by
  induction chunks with
  | nil => exact fun download whole => rfl
  | cons chunk chunks ih =>
    intro download whole
    rw [List.flatten_cons, ← List.append_assoc] at whole
    have now : fits room (download.written ++ chunk) = true := fits_front whole
    rw [List.map_cons, List.cons_append, downloadFrames, if_pos now]
    exact ih (download.push total chunk) whole

/-- Data that does not fit ends the loop with an error. -/
theorem downloadFrames_full (chunks : List Bytes) (tail : List BodyFrame) : ∀ download : Download,
    fits room download.written = true →
      fits room (download.written ++ chunks.flatten) = false →
        (downloadFrames room total (chunks.map .data ++ tail) download).1 = some .writeChunk := by
  induction chunks with
  | nil =>
    intro download now whole
    rw [List.flatten_nil, List.append_nil, now] at whole
    cases whole
  | cons chunk chunks ih =>
    intro download now whole
    rw [List.map_cons, List.cons_append, downloadFrames]
    by_cases next : fits room (download.written ++ chunk) = true
    · rw [if_pos next]
      rw [List.flatten_cons, ← List.append_assoc] at whole
      exact ih (download.push total chunk) next whole
    · rw [if_neg next]

/-- Collecting takes the data, and drops the trailers. -/
theorem collectFrames_bodyFrames (chunks : List Bytes) (trailers : Option HeaderMap) :
    collectFrames (bodyFrames chunks trailers) = some chunks.flatten := by
  induction chunks with
  | nil => cases trailers <;> rfl
  | cons chunk chunks ih =>
    have later : collectFrames (chunks.map .data ++ (trailers.map .trailers).toList) =
        some chunks.flatten := ih
    rw [bodyFrames, List.map_cons, List.cons_append, collectFrames, later, List.flatten_cons]
    rfl

end Frames

section Saving

variable {world : HopWorld} {cli : Cli} {path : Text} {response : Response}
  {chunks : List Bytes} {trailers : Option HeaderMap}

/-- A declared length is a `u64`. -/
theorem progressTotal_lt (response : Response) : progressTotal response < 2 ^ 64 := by
  rw [progressTotal]
  cases same : declaredLength response with
  | none => exact Nat.two_pow_pos 64
  | some length =>
    rw [declaredLength, Option.bind_eq_some_iff] at same
    rcases same with ⟨text, -, parsed⟩
    exact RustText.parseUnsigned_lt parsed

/-- The ending of a call that saves. -/
theorem handleResponse_saving :
    handleResponse world (cli.saving path) response = saveBody world path response := rfl

/-- The loop ends well exactly when the data fits and no trailers follow it. -/
theorem downloadFrames_none_iff {room : Option Nat} {total : Nat} :
    (downloadFrames room total (bodyFrames chunks trailers) {}).1 = none ↔
      trailers = none ∧ fits room chunks.flatten = true := by
  cases whole : fits room chunks.flatten with
  | false =>
    have full : (downloadFrames room total (bodyFrames chunks trailers) {}).1 =
        some .writeChunk := downloadFrames_full chunks _ {} (fits_nil room) whole
    rw [full]
    exact iff_of_false (Option.some_ne_none _) fun both => Bool.noConfusion both.2
  | true =>
    have written := downloadFrames_data total chunks
      (trailers.map .trailers).toList {} whole
    rw [bodyFrames, written]
    cases trailers with
    | none => exact iff_of_true rfl ⟨rfl, rfl⟩
    | some map => exact iff_of_false (Option.some_ne_none _) fun both => Option.some_ne_none _ both.1

/-- Data alone that fits is written to its end. -/
theorem downloadFrames_plain {room : Option Nat} (total : Nat)
    (whole : fits room chunks.flatten = true) :
    downloadFrames room total (bodyFrames chunks none) {} =
      (none, Download.pushAll total chunks {}) :=
  downloadFrames_data total chunks [] {} whole

/-- Its progress is that of the chunks. -/
theorem progressOf_plain (whole : fits world.room chunks.flatten = true) :
    progressOf world { response with body := bodyFrames chunks none } =
      steps (progressTotal response) 0 chunks := by
  have positions := pushAll_positions (progressTotal response) chunks {}
  have finished := downloadFrames_plain (progressTotal response) whole
  rw [List.nil_append] at positions
  rw [← positions]
  exact congrArg (fun finished => finished.2.positions) finished

/-- A call that saves ends well exactly when the file opens and the loop ends well. -/
theorem saveBody_ok_iff :
    (saveBody world path response).outcome = .ok { response with body := [] } ↔
      world.openFile path = true ∧
        (downloadFrames world.room (progressTotal response) response.body {}).1 = none := by
  unfold saveBody
  by_cases opens : world.openFile path = false
  · rw [if_pos opens]
    refine iff_of_false (fun ended => by cases ended) fun both => ?_
    rw [opens] at both
    exact Bool.noConfusion both.1
  · rw [if_neg opens]
    have opened : world.openFile path = true := Bool.of_not_eq_false opens
    cases ended : (downloadFrames world.room (progressTotal response) response.body {}).1 with
    | none =>
      rw [progressTotal] at ended
      dsimp only
      rw [ended]
      exact iff_of_true rfl ⟨opened, rfl⟩
    | some error =>
      rw [progressTotal] at ended
      dsimp only
      rw [ended]
      exact iff_of_false (fun same => by cases same) fun both => by cases both.2

/-- The file of a call that saves. -/
theorem saveBody_file (opens : world.openFile path = true) :
    (saveBody world path response).file =
      some (downloadFrames world.room (progressTotal response) response.body {}).2.written := by
  unfold saveBody
  rw [if_neg (by rw [opens]; exact Bool.noConfusion)]
  rfl

end Saving

/-- Saving a body agrees with collecting it exactly when no trailers follow the data, the file can
be opened and holds it, and the progress never exceeds a `u64`. -/
theorem saved_body_iff (world : HopWorld) (cli : Cli) (path : Text) (response : Response)
    (chunks : List Bytes) (trailers : Option HeaderMap)
    (sized : ∀ chunk ∈ chunks, chunk.length < 2 ^ 64) :
    SavesBody world cli path { response with body := bodyFrames chunks trailers } chunks.flatten ↔
      (trailers = none ∧ world.openFile path = true ∧ fits world.room chunks.flatten = true) ∧
        NeverWraps (progressTotal response) 0 chunks := by
  have steady := steps_forward_iff (progressTotal_lt response) chunks 0 (Nat.zero_le _) sized
  constructor
  · intro saves
    have ended := saveBody_ok_iff.mp saves.succeeds
    have both := downloadFrames_none_iff.mp ended.2
    have forward := saves.forward
    rw [both.1, progressOf_plain both.2] at forward
    exact ⟨⟨both.1, ended.1, both.2⟩, steady.mp forward⟩
  · rintro ⟨⟨rfl, opens, whole⟩, never⟩
    have places : progressOf world { response with body := bodyFrames chunks none } = _ :=
      progressOf_plain whole
    refine ⟨saveBody_ok_iff.mpr ⟨opens, ?_⟩, ?_, collectFrames_bodyFrames chunks none, ?_, ?_⟩
    · exact downloadFrames_none_iff.mpr ⟨rfl, whole⟩
    · have written := pushAll_written (progressTotal response) chunks {}
      have finished := downloadFrames_plain (progressTotal response) whole
      have content := congrArg (fun finished => some finished.2.written) finished
      rw [handleResponse_saving, saveBody_file opens]
      exact content.trans (congrArg some written)
    · rw [places]
      exact steady.mpr never
    · intro position member
      rw [places] at member
      exact steps_le chunks 0 position member

/-- A single chunk is saved with a declared length of nothing. -/
theorem saved_body_one :
    SavesBody (calmWorld fun _ => .answered emptyResponse) plainCli "f".toList
      { emptyResponse with body := bodyFrames [[104, 105]] none } [104, 105] := by
  refine (saved_body_iff _ plainCli _ emptyResponse [[104, 105]] none (by decide)).mpr ?_
  refine ⟨⟨rfl, rfl, rfl⟩, ?_⟩
  exact (neverWraps_cons (Nat.zero_le _)).mpr ⟨by decide, neverWraps_nil⟩

/-- A body with trailers is collected, but not saved. -/
theorem trailers_not_saved :
    ¬ SavesBody (calmWorld fun _ => .answered emptyResponse) plainCli "f".toList
      { emptyResponse with body := bodyFrames [[104, 105]] (some []) } [104, 105] := by
  intro saves
  have ended := saves.succeeds
  cases ended

end Rcurl
