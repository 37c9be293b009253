import Mathlib.Tactic.Common

/-!
# Names made of labels

A name is a list of characters, and a dot parts it into labels. A name lies under a domain when its
labels end in those of the domain and there are more of them. That is the same as ending in the domain
behind a dot, so that a test on characters is one on whole labels.
-/

namespace Rcurl.DomainName

variable {α : Type} [DecidableEq α] {dot : α}

/-- The labels of a name. -/
def labels (dot : α) (name : List α) : List (List α) := name.splitOn dot

/-- The labels of a name end in those of a domain, and there are more of them. -/
def Under (dot : α) (domain name : List α) : Prop :=
  ∃ front, front ≠ [] ∧ labels dot name = front ++ labels dot domain

/-- Names with the same labels are the same. -/
theorem labels_inj {left right : List α} : labels dot left = labels dot right ↔ left = right := by
  constructor
  · intro same
    have joined := congrArg (List.intercalate [dot]) same
    rw [labels, labels, List.intercalate_splitOn, List.intercalate_splitOn] at joined
    exact joined
  · intro same
    rw [same]

omit [DecidableEq α] in
/-- Labels are joined in two parts with a dot between them. -/
theorem intercalate_append {front back : List (List α)} (some_front : front ≠ [])
    (some_back : back ≠ []) :
    List.intercalate [dot] (front ++ back) =
      List.intercalate [dot] front ++ dot :: List.intercalate [dot] back := by
  induction front with
  | nil => exact absurd rfl some_front
  | cons label front ih =>
    have whole : front ++ back ≠ [] := List.append_ne_nil_of_right_ne_nil front some_back
    rw [List.cons_append, List.intercalate_cons_of_ne_nil whole]
    by_cases last : front = []
    · rw [last, List.nil_append, List.intercalate_singleton, List.append_assoc]
      rfl
    · rw [ih last, List.intercalate_cons_of_ne_nil last, List.append_assoc, List.append_assoc,
        List.append_assoc]

/-- A name ends in a domain behind a dot exactly when it lies under the domain. -/
theorem suffix_iff_under {domain name : List α} : dot :: domain <:+ name ↔ Under dot domain name := by
  constructor
  · rintro ⟨front, rfl⟩
    refine ⟨labels dot front, List.splitOn_ne_nil dot front, ?_⟩
    exact List.splitOn_append_cons_self front domain
  · rintro ⟨front, some_front, same⟩
    have joined := congrArg (List.intercalate [dot]) same
    rw [labels, labels, intercalate_append some_front (List.splitOn_ne_nil dot domain),
      List.intercalate_splitOn, List.intercalate_splitOn] at joined
    rw [joined]
    exact List.suffix_append _ _

end Rcurl.DomainName
