import Mathlib.Data.List.Nodup
import Mathlib.Tactic.Common

/-!
# Ordered maps with several values to a key

A list of entries in iteration order, with the values of one key next to each other. Inserting
replaces every value of a key and keeps its place; appending adds a value behind the key's last
one. Consuming the map names each key once, at its first value. Proofs about maps use only what the lemmas
say of the values of a key after each operation, not how the entries are laid out.
-/

namespace Rcurl.MultiMap

variable {κ β : Type} [DecidableEq κ]

/-- The values of a key, in order. -/
def getAll (key : κ) (map : List (κ × β)) : List β := (map.filter (·.1 = key)).map Prod.snd

/-- The first value of a key. -/
def get (key : κ) (map : List (κ × β)) : Option β := (getAll key map).head?

/-- Replace every value of a key, in its place or at the end. -/
def insert (key : κ) (value : β) : List (κ × β) → List (κ × β)
  | [] => [(key, value)]
  | entry :: rest =>
    if entry.1 = key then (key, value) :: rest.filter (·.1 ≠ key) else entry :: insert key value rest

/-- Add a value behind the last one of its key, or at the end. -/
def append (key : κ) (value : β) : List (κ × β) → List (κ × β)
  | [] => [(key, value)]
  | entry :: rest =>
    if entry.1 = key ∧ ∀ later ∈ rest, later.1 ≠ key then entry :: (key, value) :: rest
    else entry :: append key value rest

/-- The entries of a consumed map: a key is named unless it is the one named before. -/
def intoIterAfter : Option κ → List (κ × β) → List (Option κ × β)
  | _, [] => []
  | previous, entry :: rest =>
    (if previous = some entry.1 then none else some entry.1, entry.2) ::
      intoIterAfter (some entry.1) rest

/-- The entries of a consumed map. -/
def intoIter (map : List (κ × β)) : List (Option κ × β) := intoIterAfter none map

/-- Every key has one value. -/
def Single (map : List (κ × β)) : Prop := (map.map Prod.fst).Nodup

@[simp] theorem getAll_nil (key : κ) : getAll key ([] : List (κ × β)) = [] := rfl

theorem getAll_cons (key : κ) (entry : κ × β) (map : List (κ × β)) :
    getAll key (entry :: map) =
      if entry.1 = key then entry.2 :: getAll key map else getAll key map := by
  by_cases same : entry.1 = key <;> simp [getAll, same]

/-- Entries of other keys do not count. -/
theorem getAll_filter_ne {key other : κ} (apart : other ≠ key) (map : List (κ × β)) :
    getAll other (map.filter (·.1 ≠ key)) = getAll other map := by
  induction map with
  | nil => rfl
  | cons entry map ih =>
    by_cases same : entry.1 = key
    · rw [List.filter_cons_of_neg (by simp [same]), ih, getAll_cons, if_neg]
      rw [same]
      exact apart.symm
    · rw [List.filter_cons_of_pos (by simp [same]), getAll_cons, ih, getAll_cons]

/-- An inserted value is the only one of its key. -/
@[simp] theorem getAll_insert_self (key : κ) (value : β) (map : List (κ × β)) :
    getAll key (insert key value map) = [value] := by
  induction map with
  | nil => simp [insert, getAll]
  | cons entry map ih =>
    by_cases same : entry.1 = key
    · have none : getAll key (map.filter (·.1 ≠ key)) = [] := by
        simp [getAll, List.filter_filter]
      rw [insert, if_pos same, getAll_cons, if_pos rfl, none]
    · rw [insert, if_neg same, getAll_cons, if_neg same, ih]

/-- Inserting leaves the other keys alone. -/
theorem getAll_insert_of_ne {key other : κ} (apart : other ≠ key) (value : β) (map : List (κ × β)) :
    getAll other (insert key value map) = getAll other map := by
  induction map with
  | nil => simp [insert, getAll, apart.symm]
  | cons entry map ih =>
    by_cases same : entry.1 = key
    · rw [insert, if_pos same, getAll_cons, if_neg apart.symm, getAll_filter_ne apart, getAll_cons,
        if_neg]
      rw [same]
      exact apart.symm
    · rw [insert, if_neg same, getAll_cons, ih, getAll_cons]

/-- An appended value is the last one of its key. -/
theorem getAll_append_self (key : κ) (value : β) (map : List (κ × β)) :
    getAll key (append key value map) = getAll key map ++ [value] := by
  induction map with
  | nil => simp [append, getAll]
  | cons entry map ih =>
    rw [append]
    split_ifs with last
    · have none : getAll key map = [] := by
        rw [getAll, List.map_eq_nil_iff, List.filter_eq_nil_iff]
        intro later member
        simpa using last.2 later member
      rw [getAll_cons, if_pos last.1, getAll_cons, if_pos rfl, getAll_cons, if_pos last.1, none]
      rfl
    · rw [getAll_cons, ih, getAll_cons]
      split_ifs <;> rfl

/-- Appending leaves the other keys alone. -/
theorem getAll_append_of_ne {key other : κ} (apart : other ≠ key) (value : β) (map : List (κ × β)) :
    getAll other (append key value map) = getAll other map := by
  induction map with
  | nil => simp [append, getAll, apart.symm]
  | cons entry map ih =>
    rw [append]
    split_ifs
    · rw [getAll_cons, getAll_cons, if_neg apart.symm, getAll_cons]
    · rw [getAll_cons, ih, getAll_cons]

/-- The keys after an insertion. -/
theorem mem_insert_keys {key other : κ} {value : β} {map : List (κ × β)}
    (member : other ∈ (insert key value map).map Prod.fst) :
    other = key ∨ other ∈ map.map Prod.fst := by
  induction map with
  | nil => simpa [insert] using member
  | cons entry map ih =>
    rw [insert] at member
    split_ifs at member with same
    · rw [List.map_cons, List.mem_cons] at member
      rcases member with here | later
      · exact .inl here
      · have kept := List.Sublist.subset (List.Sublist.map Prod.fst List.filter_sublist) later
        exact .inr (List.mem_cons_of_mem _ kept)
    · rw [List.map_cons, List.mem_cons] at member
      rcases member with here | later
      · exact .inr (by rw [here]; exact List.mem_cons_self)
      · exact (ih later).imp id (List.mem_cons_of_mem _)

/-- Inserting keeps one value to a key. -/
theorem insert_single {map : List (κ × β)} (single : Single map) (key : κ) (value : β) :
    Single (insert key value map) := by
  induction map with
  | nil => simp [insert, Single]
  | cons entry map ih =>
    rw [Single, List.map_cons, List.nodup_cons] at single
    rw [insert]
    split_ifs with same
    · rw [Single, List.map_cons, List.nodup_cons]
      refine ⟨by simp, ?_⟩
      exact single.2.sublist (List.Sublist.map Prod.fst List.filter_sublist)
    · rw [Single, List.map_cons, List.nodup_cons]
      refine ⟨fun member => ?_, ih single.2⟩
      rcases mem_insert_keys member with here | later
      · exact same here
      · exact single.1 later

/-- With one value to a key, every entry of the consumed map names its key. -/
theorem intoIter_single {map : List (κ × β)} (single : Single map) :
    intoIter map = map.map fun entry => (some entry.1, entry.2) := by
  have named : ∀ (entries : List (κ × β)) (previous : Option κ), Single entries →
      (∀ key, previous = some key → key ∉ entries.map Prod.fst) →
        intoIterAfter previous entries = entries.map fun entry => (some entry.1, entry.2) := by
    intro entries
    induction entries with
    | nil => exact fun _ _ _ => rfl
    | cons entry entries ih =>
      intro previous distinct fresh
      rw [Single, List.map_cons, List.nodup_cons] at distinct
      have new : previous ≠ some entry.1 := fun same => fresh _ same (by simp)
      rw [intoIterAfter, if_neg new, List.map_cons, ih (some entry.1) distinct.2]
      intro key same
      rw [← Option.some.inj same]
      exact distinct.1
  exact named map none single (by simp)

end Rcurl.MultiMap
