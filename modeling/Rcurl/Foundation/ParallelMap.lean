import Mathlib.Data.List.Basic

/-!
# A map whose items are done in any order

Every item has a slot of its own, the slots are filled in the order in which the items are done, and the
list is collected from the slots. Whatever the order, it is the list that a map from the front gives.
-/

namespace Rcurl.ParallelMap

variable {α β : Type*}

/-- The order in which so many items are done, each of them once. -/
structure Schedule (count : ℕ) where
  /-- The indices, in that order. -/
  order : List ℕ
  /-- Every index comes once. -/
  perm : order.Perm (List.range count)

/-- From the front to the end. -/
def Schedule.inOrder (count : ℕ) : Schedule count where
  order := List.range count
  perm := List.Perm.refl _

/-- One item is done. -/
def fill (f : α → β) (items : List α) (slots : List (Option β)) (index : ℕ) : List (Option β) :=
  slots.set index (items[index]?.map f)

/-- The slots when all items are done. -/
def run (f : α → β) (items : List α) (schedule : Schedule items.length) : List (Option β) :=
  schedule.order.foldl (fill f items) (List.replicate items.length none)

/-- The list that is collected, slot by slot. -/
def collect (f : α → β) (items : List α) (schedule : Schedule items.length) : List β :=
  (run f items schedule).filterMap id

/-- No slot comes or goes. -/
theorem length_foldl_fill (f : α → β) (items : List α) (order : List ℕ) (slots : List (Option β)) :
    (order.foldl (fill f items) slots).length = slots.length := by
  induction order generalizing slots with
  | nil => rfl
  | cons index order ih => rw [List.foldl_cons, ih, fill, List.length_set]

/-- A slot has its own result once its item is done, and what it had before until then. -/
theorem getElem?_foldl_fill (f : α → β) (items : List α) {index : ℕ} (order : List ℕ)
    (slots : List (Option β)) (inside : index < slots.length) :
    (order.foldl (fill f items) slots)[index]? =
      if index ∈ order then some (items[index]?.map f) else slots[index]? := by
  induction order generalizing slots with
  | nil => rfl
  | cons first order ih =>
    have kept : index < (fill f items slots first).length := by
      rw [fill, List.length_set]
      exact inside
    rw [List.foldl_cons, ih _ kept]
    by_cases later : index ∈ order
    · rw [if_pos later, if_pos (List.mem_cons_of_mem first later)]
    · rw [if_neg later, fill, List.getElem?_set]
      by_cases here : first = index
      · rw [if_pos here, if_pos (by rw [here]; exact inside), if_pos (by rw [here]; simp), here]
      · rw [if_neg here, if_neg]
        rw [List.mem_cons, not_or]
        exact ⟨fun same => here same.symm, later⟩

/-- All slots are filled in the end, each with the result of its own item. -/
theorem run_eq (f : α → β) (items : List α) (schedule : Schedule items.length) :
    run f items schedule = items.map fun item => some (f item) := by
  apply List.ext_getElem?
  intro index
  rw [List.getElem?_map]
  by_cases inside : index < items.length
  · have done : index ∈ schedule.order := schedule.perm.mem_iff.mpr (List.mem_range.mpr inside)
    rw [run, getElem?_foldl_fill f items _ _ (by rw [List.length_replicate]; exact inside),
      if_pos done, List.getElem?_eq_getElem inside]
    rfl
  · have outside : (run f items schedule).length ≤ index := by
      rw [run, length_foldl_fill, List.length_replicate]
      exact Nat.le_of_not_lt inside
    rw [List.getElem?_eq_none outside, List.getElem?_eq_none (Nat.le_of_not_lt inside)]
    rfl

/-- In whatever order the items are done, the list is collected in theirs. -/
theorem collect_eq_map (f : α → β) (items : List α) (schedule : Schedule items.length) :
    collect f items schedule = items.map f := by
  rw [collect, run_eq, List.filterMap_map]
  exact congrFun List.filterMap_eq_map items

end Rcurl.ParallelMap
