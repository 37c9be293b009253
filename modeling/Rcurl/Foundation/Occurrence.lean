import Mathlib.Data.List.Infix

/-!
# The first occurrence of a pattern

Where a pattern first stands in a list, and how that depends on what is appended to the list or put
before it. A separator that is no item of the pattern keeps the two sides apart: an occurrence lies
wholly on one of them.
-/

namespace Rcurl.Occurrence

variable {α : Type*} {pattern text front rest : List α}

/-- The pattern stands in the text between the two parts, and nowhere earlier. -/
structure FirstAt (pattern text front rest : List α) : Prop where
  /-- It stands there. -/
  whole : text = front ++ (pattern ++ rest)
  /-- It stands nowhere earlier. -/
  first : ∀ k < front.length, ¬ pattern <+: text.drop k

/-- What stands behind the first occurrence and before the next one, or the end. -/
def Between (pattern text middle : List α) : Prop :=
  ∃ front tail, FirstAt pattern text front tail ∧
    ((∃ rest, FirstAt pattern tail middle rest) ∨ (middle = tail ∧ ¬ pattern <:+: tail))

/-- The pattern is first in front of anything. -/
theorem FirstAt.here (pattern rest : List α) : FirstAt pattern (pattern ++ rest) [] rest where
  whole := rfl
  first := fun _ early => absurd early (Nat.not_lt_zero _)

/-- An item where the pattern does not start only moves the first occurrence. -/
theorem FirstAt.cons {item : α} (absent : ¬ pattern <+: item :: text)
    (found : FirstAt pattern text front rest) :
    FirstAt pattern (item :: text) (item :: front) rest where
  whole := by rw [found.whole, List.cons_append]
  first := by
    intro k early
    cases k with
    | zero => exact absent
    | succ k => exact found.first k (Nat.lt_of_succ_lt_succ early)

/-- Behind an item in front of it the first occurrence is the first one still. -/
theorem FirstAt.tail {item other : α} (found : FirstAt pattern (item :: text) (other :: front) rest) :
    item = other ∧ ¬ pattern <+: item :: text ∧ FirstAt pattern text front rest := by
  obtain ⟨same, whole⟩ := List.cons.inj found.whole
  refine ⟨same, found.first 0 (Nat.succ_pos _), whole, ?_⟩
  intro k early
  exact found.first (k + 1) (Nat.succ_lt_succ early)

/-- There is a first occurrence where there is one. -/
theorem infix_iff_firstAt : pattern <:+: text ↔ ∃ front rest, FirstAt pattern text front rest := by
  constructor
  · intro occurs
    induction text with
    | nil =>
      have empty : pattern = [] := List.infix_nil.mp occurs
      exact ⟨[], [], by rw [empty]; exact FirstAt.here [] []⟩
    | cons item text ih =>
      by_cases starts : pattern <+: item :: text
      · obtain ⟨rest, whole⟩ := starts
        exact ⟨[], rest, by rw [← whole]; exact FirstAt.here pattern rest⟩
      · have later := (List.infix_cons_iff.mp occurs).resolve_left starts
        obtain ⟨front, rest, found⟩ := ih later
        exact ⟨item :: front, rest, found.cons starts⟩
  · rintro ⟨front, rest, found⟩
    exact ⟨front, rest, by rw [found.whole, List.append_assoc]⟩

/-- There is only one. -/
theorem FirstAt.unique {other after : List α} (found : FirstAt pattern text front rest)
    (again : FirstAt pattern text other after) : front = other ∧ rest = after := by
  have place : ∀ {first second first' second' : List α}, FirstAt pattern text first second →
      FirstAt pattern text first' second' → first.length ≤ first'.length := by
    intro first second first' second' one two
    by_contra shorter
    apply one.first first'.length (by omega)
    rw [two.whole, List.drop_left]
    exact List.prefix_append pattern second'
  have same : front.length = other.length := Nat.le_antisymm (place found again) (place again found)
  have whole := found.whole.symm.trans again.whole
  obtain ⟨fronts, behind⟩ := List.append_inj whole same
  exact ⟨fronts, List.append_cancel_left behind⟩

/-- What stands before the first occurrence does not have the pattern. -/
theorem FirstAt.not_infix (found : FirstAt pattern text front rest) (nonempty : pattern ≠ []) :
    ¬ pattern <:+: front := by
  intro occurs
  obtain ⟨before, after, within⟩ := infix_iff_firstAt.mp occurs
  have positive : 0 < pattern.length := List.length_pos_iff.mpr nonempty
  have early : before.length < front.length := by
    rw [within.whole, List.length_append, List.length_append]
    omega
  apply found.first before.length early
  rw [found.whole, within.whole, List.append_assoc, List.drop_left, List.append_assoc]
  exact List.prefix_append pattern _

/-- Neither does what stands between two occurrences. -/
theorem Between.not_infix {middle : List α} (between : Between pattern text middle)
    (nonempty : pattern ≠ []) : ¬ pattern <:+: middle := by
  obtain ⟨front, tail, found, ⟨rest, next⟩ | ⟨whole, absent⟩⟩ := between
  · exact next.not_infix nonempty
  · rw [whole]
    exact absent

/-- What is appended to the text only lengthens the rest. -/
theorem FirstAt.append (found : FirstAt pattern text front rest) (more : List α) :
    FirstAt pattern (text ++ more) front (rest ++ more) where
  whole := by rw [found.whole, List.append_assoc, List.append_assoc]
  first := by
    intro k early starts
    have room : front.length + pattern.length ≤ text.length := by
      have length := congrArg List.length found.whole
      rw [List.length_append, List.length_append] at length
      omega
    apply found.first k early
    rw [List.drop_append_of_le_length (by omega)] at starts
    apply List.prefix_of_prefix_length_le starts (List.prefix_append _ more)
    rw [List.length_drop]
    omega

section Separator

variable {separator : α} {before after : List α}

/-- A pattern that starts before a separator ends before it. -/
theorem prefix_append_iff (apart : separator ∉ pattern) (before : List α) :
    pattern <+: before ++ separator :: after ↔ pattern <+: before := by
  constructor
  · intro starts
    by_cases short : pattern.length ≤ before.length
    · exact List.prefix_of_prefix_length_le starts (List.prefix_append before _) short
    · have covered : before ++ [separator] <+: pattern := by
        apply List.prefix_of_prefix_length_le _ starts
        · rw [List.length_append, List.length_singleton]
          omega
        · exact ⟨after, by rw [List.append_assoc, List.singleton_append]⟩
      exact absurd (covered.subset (by simp)) apart
  · intro starts
    exact starts.trans (List.prefix_append before _)

/-- No pattern starts with a separator. -/
theorem not_prefix_separator (apart : separator ∉ pattern) (nonempty : pattern ≠ []) :
    ¬ pattern <+: separator :: after := by
  intro starts
  have short : pattern <+: [] := (prefix_append_iff apart []).mp starts
  exact nonempty (List.prefix_nil.mp short)

/-- A separator in front hides no occurrence and adds none. -/
theorem infix_separator_iff (apart : separator ∉ pattern) (nonempty : pattern ≠ []) :
    pattern <:+: separator :: after ↔ pattern <:+: after := by
  rw [List.infix_cons_iff]
  exact or_iff_right (not_prefix_separator apart nonempty)

/-- An occurrence lies before the separator or behind it. -/
theorem infix_append_iff (apart : separator ∉ pattern) (nonempty : pattern ≠ []) :
    pattern <:+: before ++ separator :: after ↔ pattern <:+: before ∨ pattern <:+: after := by
  induction before with
  | nil =>
    rw [List.nil_append, infix_separator_iff apart nonempty, List.infix_nil]
    exact (or_iff_right nonempty).symm
  | cons item before ih =>
    have starts : pattern <+: item :: (before ++ separator :: after) ↔ pattern <+: item :: before :=
      prefix_append_iff apart (item :: before)
    rw [List.cons_append, List.infix_cons_iff, List.infix_cons_iff, starts, ih, or_assoc]

/-- Behind a separator the first occurrence stays the first, if there is none before. -/
theorem FirstAt.behind (found : FirstAt pattern after front rest) (apart : separator ∉ pattern)
    (nonempty : pattern ≠ []) (absent : ¬ pattern <:+: before) :
    FirstAt pattern (before ++ separator :: after) (before ++ separator :: front) rest := by
  induction before with
  | nil => exact found.cons (not_prefix_separator apart nonempty)
  | cons item before ih =>
    rw [List.infix_cons_iff, not_or] at absent
    apply (ih absent.2).cons
    intro starts
    have within : pattern <+: item :: before := (prefix_append_iff apart (item :: before)).mp starts
    exact absent.1 within

end Separator

end Rcurl.Occurrence
