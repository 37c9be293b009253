import Rcurl.Foundation.RustText
import Rcurl.Foundation.Utf8
import Rcurl.Foundation.WeightedPrefix

/-!
# Names cut to a display width

`truncate_for_display` takes characters while they fit, and if some are left, drops characters again
until three dots fit behind the rest. From three columns on what it keeps is the longest prefix that
leaves room for the dots: `truncation_exact`.
-/

namespace Rcurl

open RustText (Text)
open WeightedPrefix (Covers Longest total)

/-- The columns of a character: one for ASCII, else two. -/
def charWidth (c : Char) : Nat := if c.toNat < 128 then 1 else 2

/-- `display_width`. -/
def displayWidth (s : Text) : Nat := (s.map charWidth).sum

/-- The variables of `truncate_for_display`. -/
structure Truncation where
  /-- `result`. -/
  result : Text := []
  /-- `current_width`. -/
  currentWidth : Nat := 0
  deriving DecidableEq, Repr

/-- The `for` loop: characters are taken while they fit. -/
def pushChars (maxWidth : Nat) : Text → Truncation → Truncation
  | [], state => state
  | c :: rest, state =>
    if state.currentWidth + charWidth c > maxWidth then state
    else
      pushChars maxWidth rest
        { result := state.result ++ [c], currentWidth := state.currentWidth + charWidth c }

/-- `"..."`. -/
def ellipsis : Text := "...".toList

/-- The `while` loop: characters are dropped until the dots fit. The width that it keeps, of the last
character that is left, is not read again. -/
def popChars (maxWidth : Nat) (state : Truncation) : Truncation :=
  if displayWidth state.result + displayWidth ellipsis > maxWidth ∧ state.result ≠ [] then
    popChars maxWidth
      { result := state.result.dropLast
        currentWidth := state.currentWidth - (state.result.dropLast.getLast?.map charWidth).getD 1 }
  else state
termination_by state.result.length
decreasing_by
  rw [List.length_dropLast]
  have positive := List.length_pos_iff.mpr (by assumption : _ ∧ state.result ≠ []).2
  omega

/-- `truncate_for_display`. -/
def truncateForDisplay (s : Text) (maxWidth : Nat) : Text :=
  let pushed := pushChars maxWidth s {}
  if (Utf8.encode pushed.result).length < (Utf8.encode s).length then
    (popChars maxWidth pushed).result ++ ellipsis
  else pushed.result

/-- What a name cut to a width has to be. -/
structure CutExactly (s : Text) (maxWidth : Nat) (cut : Text) : Prop where
  /-- It is the name exactly when that fits. -/
  whole : cut = s ↔ displayWidth s ≤ maxWidth
  /-- Else it is the longest prefix that leaves room for the dots, and the dots. -/
  longest : maxWidth < displayWidth s → ∃ kept, cut = kept ++ "...".toList ∧ kept <+: s ∧
    displayWidth kept + 3 ≤ maxWidth ∧
      ∀ other, other <+: s → displayWidth other + 3 ≤ maxWidth → other.length ≤ kept.length
  /-- What is kept is no wider than the bound. -/
  fits : displayWidth cut ≤ maxWidth

/-- A width is the total of the widths of the characters. -/
theorem displayWidth_eq (s : Text) : displayWidth s = total charWidth s := rfl

@[simp] theorem displayWidth_append (first second : Text) :
    displayWidth (first ++ second) = displayWidth first + displayWidth second :=
  WeightedPrefix.total_append first second

/-- The dots take three columns. -/
@[simp] theorem displayWidth_ellipsis : displayWidth ellipsis = 3 := by decide

/-- A part of a text that is missing bytes is missing characters. -/
theorem length_encode_lt_iff {part s : Text} (starts : part <+: s) :
    (Utf8.encode part).length < (Utf8.encode s).length ↔ part.length < s.length := by
  obtain ⟨rest, rfl⟩ := starts
  have bytes : Utf8.encode (part ++ rest) = Utf8.encode part ++ Utf8.encode rest :=
    List.flatMap_append
  rw [bytes, List.length_append, List.length_append]
  cases rest with
  | nil => exact iff_of_false (Nat.lt_irrefl _) (Nat.lt_irrefl _)
  | cons c rest =>
    have first : 0 < (String.utf8EncodeChar c).length := by
      rw [String.length_utf8EncodeChar]
      exact Char.utf8Size_pos c
    have positive : 0 < (Utf8.encode (c :: rest)).length := by
      rw [Utf8.encode, List.flatMap_cons, List.length_append]
      omega
    rw [List.length_cons]
    omega

/-- The first loop takes the longest prefix that fits. -/
theorem pushChars_longest {maxWidth : Nat} (rest : Text) : ∀ state : Truncation,
    state.currentWidth = displayWidth state.result → displayWidth state.result ≤ maxWidth →
      Longest charWidth maxWidth (state.result ++ rest) (pushChars maxWidth rest state).result := by
  induction rest with
  | nil =>
    intro state width within
    rw [List.append_nil]
    exact WeightedPrefix.longest_self_iff.mpr within
  | cons c rest ih =>
    intro state width within
    rw [pushChars]
    by_cases exceeds : state.currentWidth + charWidth c > maxWidth
    · rw [if_pos exceeds]
      rw [width] at exceeds
      exact Longest.of_next within exceeds
    · have taken : displayWidth (state.result ++ [c]) = state.currentWidth + charWidth c := by
        rw [displayWidth_append, width]
        rfl
      have later := ih { result := state.result ++ [c], currentWidth := state.currentWidth + charWidth c }
        taken.symm (by rw [taken]; exact Nat.le_of_not_lt exceeds)
      rw [List.append_assoc, List.singleton_append] at later
      rw [if_neg exceeds]
      exact later

/-- The second loop leaves the longest prefix that leaves room for the dots. -/
theorem popChars_longest {maxWidth : Nat} {s : Text} (wide : 3 ≤ maxWidth) (state : Truncation)
    (covered : Covers charWidth (maxWidth - 3) s state.result) :
    Longest charWidth (maxWidth - 3) s (popChars maxWidth state).result := by
  fun_induction popChars maxWidth state with
  | case1 state exceeds ih =>
    apply ih
    apply covered.dropLast
    have heavy := exceeds.1
    rw [displayWidth_ellipsis, displayWidth_eq] at heavy
    omega
  | case2 state fits =>
    refine ⟨covered, ?_⟩
    rw [displayWidth_ellipsis, displayWidth_eq, not_and_or, not_not] at fits
    rcases fits with light | empty
    · omega
    · rw [empty, WeightedPrefix.total_nil]
      exact Nat.zero_le _

/-- What is kept of a text. -/
theorem truncateForDisplay_cases {maxWidth : Nat} (s : Text) (wide : 3 ≤ maxWidth) :
    (displayWidth s ≤ maxWidth ∧ truncateForDisplay s maxWidth = s) ∨
      (maxWidth < displayWidth s ∧ ∃ kept, Longest charWidth (maxWidth - 3) s kept ∧
        truncateForDisplay s maxWidth = kept ++ ellipsis) := by
  have pushed : Longest charWidth maxWidth s (pushChars maxWidth s {}).result :=
    pushChars_longest s {} rfl (Nat.zero_le _)
  have missing := (length_encode_lt_iff pushed.isPrefix).trans pushed.length_lt_iff
  rw [← displayWidth_eq] at missing
  by_cases heavy : maxWidth < displayWidth s
  · have popped := popChars_longest wide _ (pushed.covers_of_le (Nat.sub_le maxWidth 3))
    refine .inr ⟨heavy, _, popped, ?_⟩
    rw [truncateForDisplay]
    exact if_pos (missing.mpr heavy)
  · have light : displayWidth s ≤ maxWidth := Nat.le_of_not_lt heavy
    refine .inl ⟨light, ?_⟩
    have full : truncateForDisplay s maxWidth = (pushChars maxWidth s {}).result :=
      if_neg (missing.not.mpr heavy)
    rw [full]
    exact pushed.unique (WeightedPrefix.longest_self_iff.mpr light)

/-- A name within the width is not cut. -/
theorem truncateForDisplay_fits {s : Text} {maxWidth : Nat} (wide : 3 ≤ maxWidth)
    (fits : displayWidth s ≤ maxWidth) : truncateForDisplay s maxWidth = s := by
  rcases truncateForDisplay_cases s wide with ⟨_, same⟩ | ⟨heavy, _⟩
  · exact same
  · omega

/-- A cut name is within the width. -/
theorem displayWidth_truncateForDisplay {maxWidth : Nat} (s : Text) (wide : 3 ≤ maxWidth) :
    displayWidth (truncateForDisplay s maxWidth) ≤ maxWidth := by
  rcases truncateForDisplay_cases s wide with ⟨fits, same⟩ | ⟨_, kept, longest, same⟩
  · rw [same]
    exact fits
  · have within := longest.within
    rw [← displayWidth_eq] at within
    rw [same, displayWidth_append, displayWidth_ellipsis]
    omega

/-- Names are cut exactly. -/
theorem cutExactly {maxWidth : Nat} (s : Text) (wide : 3 ≤ maxWidth) :
    CutExactly s maxWidth (truncateForDisplay s maxWidth) where
  fits := displayWidth_truncateForDisplay s wide
  whole := by
    constructor
    · intro same
      rw [← same]
      exact displayWidth_truncateForDisplay s wide
    · exact truncateForDisplay_fits wide
  longest := by
    intro heavy
    rcases truncateForDisplay_cases s wide with ⟨fits, _⟩ | ⟨_, kept, longest, same⟩
    · omega
    · have within := longest.within
      rw [← displayWidth_eq] at within
      refine ⟨kept, same, longest.isPrefix, by omega, ?_⟩
      intro other starts room
      apply List.IsPrefix.length_le
      apply longest.covers other starts
      rw [← displayWidth_eq]
      omega

end Rcurl
