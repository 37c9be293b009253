import Mathlib.Data.List.Induction
import Mathlib.Data.List.Nodup
import Mathlib.Tactic.Common

/-!
# Most recently used lists

A list is kept in order of use: using an element removes it from wherever it stands and puts it in
front. Over any run of uses the result is the used elements, each once and the latest first,
followed by the unused ones of the start in their order.
-/

namespace Rcurl.Recency

variable {α : Type} [DecidableEq α]

/-- Use one element: drop it from the list and put it in front. -/
def toFront (used : α) (list : List α) : List α := used :: list.filter (· ≠ used)

/-- Use elements one after another. -/
def touch (uses : List α) (list : List α) : List α :=
  uses.foldl (fun list used => toFront used list) list

/-- The elements of a list that a run does not use, in their order. -/
def unused (uses list : List α) : List α := list.filter (· ∉ uses)

/-- A list in order of the last use: every used element once, later uses first. -/
structure LatestFirst (uses list : List α) : Prop where
  /-- No element occurs twice. -/
  nodup : list.Nodup
  /-- Exactly the used elements occur. -/
  mem_iff : ∀ a, a ∈ list ↔ a ∈ uses
  /-- An element stands before another when its last use is later, which is nearer to the end. -/
  sorted : list.Pairwise fun a b => uses.reverse.idxOf a < uses.reverse.idxOf b

@[simp] theorem touch_nil (list : List α) : touch [] list = list := rfl

@[simp] theorem touch_cons (used : α) (uses list : List α) :
    touch (used :: uses) list = touch uses (toFront used list) := rfl

theorem touch_append_singleton (uses : List α) (used : α) (list : List α) :
    touch (uses ++ [used]) list = toFront used (touch uses list) := by
  simp [touch]

/-- Using an element keeps a list free of repetitions. -/
theorem toFront_nodup {list : List α} (distinct : list.Nodup) (used : α) :
    (toFront used list).Nodup := by
  rw [toFront, List.nodup_cons]
  exact ⟨by simp, distinct.filter _⟩

/-- Using an element adds it and nothing else. -/
theorem mem_toFront {used a : α} {list : List α} : a ∈ toFront used list ↔ a = used ∨ a ∈ list := by
  rw [toFront, List.mem_cons, List.mem_filter, decide_eq_true_eq]
  by_cases same : a = used
  · simp [same]
  · simp [same]

/-- A run of uses puts the used elements before the rest of the list. -/
theorem touch_eq (uses list : List α) :
    touch uses list = touch uses [] ++ unused uses list := by
  induction uses using List.reverseRecOn with
  | nil => simp [unused]
  | append_singleton uses used ih =>
    have rest : (unused uses list).filter (· ≠ used) = unused (uses ++ [used]) list := by
      rw [unused, unused, List.filter_filter]
      apply List.filter_congr
      intro a _
      simp [and_comm]
    rw [touch_append_singleton, touch_append_singleton, ih, toFront, List.filter_append, rest,
      toFront, List.cons_append]

/-- A run of uses keeps a list free of repetitions. -/
theorem touch_nodup {list : List α} (distinct : list.Nodup) (uses : List α) :
    (touch uses list).Nodup := by
  induction uses generalizing list with
  | nil => exact distinct
  | cons used uses ih => exact ih (toFront_nodup distinct used)

/-- The used elements stand in order of their last use. -/
theorem touch_latestFirst (uses : List α) : LatestFirst uses (touch uses []) := by
  induction uses using List.reverseRecOn with
  | nil => exact ⟨List.nodup_nil, by simp, List.Pairwise.nil⟩
  | append_singleton uses used ih =>
    rw [touch_append_singleton]
    refine ⟨toFront_nodup ih.nodup used, fun a => ?_, ?_⟩
    · rw [mem_toFront, ih.mem_iff, List.mem_append, List.mem_singleton, or_comm]
    · rw [toFront, List.pairwise_cons, List.reverse_append, List.reverse_singleton,
        List.singleton_append]
      have apart : ∀ {a : α}, a ∈ (touch uses []).filter (· ≠ used) → used ≠ a := by
        intro a member same
        rw [List.mem_filter, decide_eq_true_eq] at member
        exact member.2 same.symm
      constructor
      · intro a member
        rw [List.idxOf_cons_self, List.idxOf_cons_ne _ (apart member)]
        exact Nat.succ_pos _
      · have earlier := ih.sorted.filter (· ≠ used)
        apply earlier.imp_of_mem
        intro a b left right before
        rw [List.idxOf_cons_ne _ (apart left), List.idxOf_cons_ne _ (apart right)]
        exact Nat.succ_lt_succ before

end Rcurl.Recency
