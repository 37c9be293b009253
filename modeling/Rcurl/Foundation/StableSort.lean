import Mathlib.Data.List.Sort

/-!
# Stable sorting

A stable sort by a comparison that is total and transitive: the list is in order, and elements that tie
stay as they were. So the first of them is the same before and after.
-/

namespace Rcurl.StableSort

variable {α : Type*}

/-- A comparison that puts any two elements in order, ties allowed. -/
structure TotalPreorder (le : α → α → Bool) : Prop where
  /-- What may stand before a key may stand before all that follow it. -/
  trans : ∀ a b c, le a b = true → le b c = true → le a c = true
  /-- Of two keys one may stand before the other. -/
  total : ∀ a b, (le a b || le b a) = true

variable {le : α → α → Bool}

/-- What is sorted is in order. -/
theorem TotalPreorder.sorted (order : TotalPreorder le) (elements : List α) :
    (elements.mergeSort le).Pairwise fun earlier later => le earlier later = true :=
  List.pairwise_mergeSort order.trans order.total elements

/-- Elements that tie stay as they were. -/
theorem TotalPreorder.filter_mergeSort (order : TotalPreorder le) {tied : α → Bool}
    (ties : ∀ a b, tied a = true → tied b = true → le a b = true) (elements : List α) :
    (elements.mergeSort le).filter tied = elements.filter tied := by
  have among : (elements.filter tied).Pairwise fun a b => le a b = true :=
    List.pairwise_of_forall_mem_list fun a first b second =>
      ties a b (List.mem_filter.mp first).2 (List.mem_filter.mp second).2
  have kept : (elements.filter tied).Sublist (elements.mergeSort le) :=
    List.sublist_mergeSort order.trans order.total among List.filter_sublist
  have inside := kept.filter tied
  rw [List.filter_filter] at inside
  simp only [Bool.and_self] at inside
  have count := ((List.mergeSort_perm elements le).filter tied).length_eq
  exact (inside.eq_of_length count.symm).symm

/-- The first of the elements that tie is the same before and after. -/
theorem TotalPreorder.find?_mergeSort (order : TotalPreorder le) {tied : α → Bool}
    (ties : ∀ a b, tied a = true → tied b = true → le a b = true) (elements : List α) :
    (elements.mergeSort le).find? tied = elements.find? tied := by
  rw [← List.head?_filter, ← List.head?_filter, order.filter_mergeSort ties]

end Rcurl.StableSort
