import Mathlib.Tactic.Common

/-!
# Texts of lines

A text of lines, each with its end, and the lines of a text. The lines are had back as long as none holds
the end itself, and what is had from a text never does.
-/

namespace Rcurl.Lines

variable {α : Type*}

/-- Every line with its end. -/
def write (newline : α) (lines : List (List α)) : List α := lines.flatMap (· ++ [newline])

variable {newline : α}

/-- Lines in front are written in front. -/
theorem write_append (front back : List (List α)) :
    write newline (front ++ back) = write newline front ++ write newline back :=
  List.flatMap_append

/-- A line that goes on with further lines is written as these lines. -/
theorem write_goes_on (line : List α) (more back : List (List α)) :
    write newline ((line ++ more.flatMap (newline :: ·)) :: back) =
      write newline (line :: more ++ back) := by
  induction more generalizing line with
  | nil => simp
  | cons next more ih =>
    have rest := ih next
    simp only [write, List.flatMap_cons, List.append_assoc, List.cons_append,
      List.nil_append] at rest ⊢
    rw [rest]

variable [DecidableEq α]

/-- What stands between the ends, and behind the last one. -/
def read (newline : α) (text : List α) : List (List α) := text.splitOn newline

/-- What is read holds no end. -/
theorem notMem_of_mem_read {text line : List α} (member : line ∈ read newline text) :
    newline ∉ line := by
  induction text generalizing line with
  | nil =>
    rw [read, List.splitOn_nil, List.mem_singleton] at member
    rw [member]
    exact List.not_mem_nil
  | cons first rest ih =>
    rw [read, List.splitOn_cons_eq_if_modifyHead] at member
    by_cases ends : first = newline
    · rw [if_pos (beq_iff_eq.mpr ends)] at member
      rcases List.mem_cons.mp member with rfl | later
      · exact List.not_mem_nil
      · exact ih later
    · rw [if_neg (fun same => ends (beq_iff_eq.mp same))] at member
      obtain ⟨head, tail, whole⟩ := List.exists_cons_of_ne_nil (List.splitOn_ne_nil newline rest)
      have pieces : read newline rest = head :: tail := whole
      rw [pieces] at ih
      rw [whole, List.modifyHead_cons] at member
      rcases List.mem_cons.mp member with rfl | later
      · rw [List.mem_cons, not_or]
        exact ⟨fun same => ends same.symm, ih List.mem_cons_self⟩
      · exact ih (List.mem_cons_of_mem head later)

/-- Lines without the end are read back, and then what stands behind them. -/
theorem read_write_append {lines : List (List α)} (free : ∀ line ∈ lines, newline ∉ line)
    (behind : List α) : read newline (write newline lines ++ behind) = lines ++ read newline behind := by
  induction lines with
  | nil => rfl
  | cons line lines ih =>
    have rest := ih fun other member => free other (List.mem_cons_of_mem line member)
    have whole : write newline (line :: lines) ++ behind =
        line ++ newline :: (write newline lines ++ behind) := by
      simp only [write, List.flatMap_cons, List.append_assoc, List.cons_append,
        List.nil_append]
    rw [read, whole, List.splitOn_append_cons_self_of_not_mem (free line List.mem_cons_self)]
    exact congrArg (line :: ·) rest

/-- Lines without the end are read back, and nothing stands behind the last end. -/
theorem read_write {lines : List (List α)} (free : ∀ line ∈ lines, newline ∉ line) :
    read newline (write newline lines) = lines ++ [[]] := by
  have alone := read_write_append free []
  rw [List.append_nil] at alone
  exact alone.trans (congrArg (lines ++ ·) (List.splitOn_nil newline))

end Rcurl.Lines
