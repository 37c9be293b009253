import Mathlib.Algebra.BigOperators.Group.List.Basic
import Mathlib.Algebra.Ring.Nat

/-!
# The longest prefix within a bound

Items with weights, and the longest prefix of a list whose weight is within a bound. There are two ways
to it: to take items from the front until the next one is too much, and to drop items from the end of a
prefix that covers it until the rest is light enough.
-/

namespace Rcurl.WeightedPrefix

variable {α : Type*} {weight : α → ℕ} {bound smaller : ℕ} {items part : List α}

/-- The weight of all items together. -/
def total (weight : α → ℕ) (items : List α) : ℕ := (items.map weight).sum

/-- A prefix that has every prefix within the bound in front of it. -/
structure Covers (weight : α → ℕ) (bound : ℕ) (items part : List α) : Prop where
  /-- Nothing is changed or left out in front of the cut. -/
  isPrefix : part <+: items
  /-- The prefixes within the bound are not longer. -/
  covers : ∀ other, other <+: items → total weight other ≤ bound → other <+: part

/-- The longest prefix within the bound. -/
structure Longest (weight : α → ℕ) (bound : ℕ) (items part : List α) : Prop
    extends Covers weight bound items part where
  /-- What is kept weighs no more than allowed. -/
  within : total weight part ≤ bound

@[simp] theorem total_nil : total weight ([] : List α) = 0 := rfl

@[simp] theorem total_append (first second : List α) :
    total weight (first ++ second) = total weight first + total weight second := by
  rw [total, total, total, List.map_append, List.sum_append]

@[simp] theorem total_singleton (item : α) : total weight [item] = weight item := by
  rw [total, List.map_singleton, List.sum_singleton]

/-- A prefix is no heavier. -/
theorem total_le_of_prefix {other : List α} (starts : other <+: items) :
    total weight other ≤ total weight items := by
  obtain ⟨rest, whole⟩ := starts
  rw [← whole, total_append]
  exact Nat.le_add_right _ _

/-- There is only one longest prefix. -/
theorem Longest.unique {other : List α} (longest : Longest weight bound items part)
    (again : Longest weight bound items other) : part = other := by
  have front := again.covers part longest.isPrefix longest.within
  have back := longest.covers other again.isPrefix again.within
  exact front.eq_of_length (Nat.le_antisymm front.length_le back.length_le)

/-- A prefix that cannot be extended within the bound is the longest. -/
theorem Longest.of_next {item : α} {rest : List α} (within : total weight part ≤ bound)
    (exceeds : bound < total weight part + weight item) :
    Longest weight bound (part ++ item :: rest) part where
  isPrefix := List.prefix_append part _
  within := within
  covers := by
    intro other starts light
    have longer : part ++ [item] <+: part ++ item :: rest :=
      ⟨rest, by rw [List.append_assoc, List.singleton_append]⟩
    rcases List.prefix_or_prefix_of_prefix starts longer with inside | beyond
    · rcases List.prefix_concat_iff.mp inside with full | shorter
      · rw [full, total_append, total_singleton] at light
        omega
      · exact shorter
    · have heavy : total weight (part ++ [item]) ≤ total weight other := total_le_of_prefix beyond
      rw [total_append, total_singleton] at heavy
      omega

/-- All items together are the longest prefix exactly when they are within the bound. -/
theorem longest_self_iff : Longest weight bound items items ↔ total weight items ≤ bound := by
  constructor
  · exact fun longest => longest.within
  · intro within
    exact ⟨⟨List.prefix_refl items, fun other starts _ => starts⟩, within⟩

/-- The longest prefix is shorter than the list exactly when the list is too heavy. -/
theorem Longest.length_lt_iff (longest : Longest weight bound items part) :
    part.length < items.length ↔ bound < total weight items := by
  constructor
  · intro shorter
    by_contra light
    have same := longest.unique (longest_self_iff.mpr (Nat.le_of_not_lt light))
    rw [same] at shorter
    exact absurd shorter (Nat.lt_irrefl _)
  · intro heavy
    by_contra full
    have same := longest.isPrefix.eq_of_length
      (Nat.le_antisymm longest.isPrefix.length_le (Nat.le_of_not_lt full))
    have within := longest.within
    rw [same] at within
    omega

/-- A longest prefix covers what is within a smaller bound. -/
theorem Longest.covers_of_le (longest : Longest weight bound items part) (less : smaller ≤ bound) :
    Covers weight smaller items part where
  isPrefix := longest.isPrefix
  covers other starts light := longest.covers other starts (Nat.le_trans light less)

/-- Dropping the last item of a prefix that is too heavy loses nothing. -/
theorem Covers.dropLast (covered : Covers weight bound items part) (heavy : bound < total weight part) :
    Covers weight bound items part.dropLast where
  isPrefix := (List.dropLast_prefix part).trans covered.isPrefix
  covers := by
    intro other starts light
    have inside := covered.covers other starts light
    rcases List.eq_nil_or_concat' part with empty | ⟨front, last, whole⟩
    · rw [empty]
      rw [empty] at inside
      exact inside
    · rw [whole] at inside heavy ⊢
      rw [List.dropLast_concat]
      rcases List.prefix_concat_iff.mp inside with full | shorter
      · rw [full] at light
        omega
      · exact shorter

end Rcurl.WeightedPrefix
