import Mathlib.Tactic.Common

/-!
# Loops with a bound and an early return

`for i in 0..max { … }` with a body that either goes on with a new state or returns, and a result for
the loop that runs out. Every round causes events. Three rules: rounds that go on can be run off
one by one, a fact about the events of one round holds of all, and a loop that starts after some
rounds is the rest of the loop.
-/

namespace Rcurl.BoundedLoop

variable {σ ε ρ : Type}

/-- One round: its events, and the next state or the result. -/
structure Round (σ ε ρ : Type) where
  /-- What the round causes, in order. -/
  events : List ε
  /-- Where the loop goes. -/
  next : σ ⊕ ρ

/-- The rounds that are left, from an index and a state. -/
def run (body : Nat → σ → Round σ ε ρ) (exhausted : ρ) : Nat → Nat → σ → List ε × ρ
  | 0, _, _ => ([], exhausted)
  | rounds + 1, index, state =>
    match (body index state).next with
    | .inr result => ((body index state).events, result)
    | .inl next =>
      ((body index state).events ++ (run body exhausted rounds (index + 1) next).1,
        (run body exhausted rounds (index + 1) next).2)

/-- Rounds that go on: from an index and a state, so many of them, their events, the last state. -/
inductive Continues (body : Nat → σ → Round σ ε ρ) : Nat → σ → Nat → List ε → σ → Prop
  /-- No round. -/
  | done (index : Nat) (state : σ) : Continues body index state 0 [] state
  /-- One round that goes on, then the others. -/
  | step {index : Nat} {state next last : σ} {count : Nat} {events : List ε}
    (goes : (body index state).next = .inl next)
    (later : Continues body (index + 1) next count events last) :
    Continues body index state (count + 1) ((body index state).events ++ events) last

section Rules

variable {body : Nat → σ → Round σ ε ρ} {exhausted : ρ}

/-- A round that goes on. -/
theorem run_next {rounds index : Nat} {state next : σ} (goes : (body index state).next = .inl next) :
    run body exhausted (rounds + 1) index state =
      ((body index state).events ++ (run body exhausted rounds (index + 1) next).1,
        (run body exhausted rounds (index + 1) next).2) := by
  rw [run, goes]

/-- A round that returns. -/
theorem run_return {rounds index : Nat} {state : σ} {result : ρ}
    (returns : (body index state).next = .inr result) :
    run body exhausted (rounds + 1) index state = ((body index state).events, result) := by
  rw [run, returns]

/-- Rounds that go on, as many as there are, come off the front of the loop. -/
theorem run_continues {index count : Nat} {state last : σ} {events : List ε}
    (chain : Continues body index state count events last) (rounds : Nat) :
    run body exhausted (count + rounds) index state =
      (events ++ (run body exhausted rounds (index + count) last).1,
        (run body exhausted rounds (index + count) last).2) := by
  induction chain with
  | done index state => simp
  | @step index state next last count events goes later ih =>
    have left : count + 1 + rounds = count + rounds + 1 := by omega
    have reached : index + (count + 1) = index + 1 + count := by omega
    rw [left, run_next goes, ih, reached, List.append_assoc]

/-- A chain can be cut after any number of its rounds. -/
theorem Continues.take {index count : Nat} {state last : σ} {events : List ε}
    (chain : Continues body index state count events last) :
    ∀ fewer ≤ count, ∃ front middle, Continues body index state fewer front middle := by
  induction chain with
  | done index state =>
    intro fewer bound
    rw [Nat.le_zero.mp bound]
    exact ⟨_, _, .done index state⟩
  | @step index state next last count events goes later ih =>
    intro fewer bound
    cases fewer with
    | zero => exact ⟨_, _, .done index state⟩
    | succ fewer =>
      obtain ⟨front, middle, shorter⟩ := ih fewer (Nat.le_of_succ_le_succ bound)
      exact ⟨_, _, .step goes shorter⟩

/-- A loop whose rounds all go on runs out. -/
theorem run_exhausts {index count : Nat} {state last : σ} {events : List ε}
    (chain : Continues body index state count events last) {rounds : Nat} (bound : rounds ≤ count) :
    ∃ front middle, Continues body index state rounds front middle ∧
      run body exhausted rounds index state = (front, exhausted) := by
  obtain ⟨front, middle, shorter⟩ := chain.take rounds bound
  have whole : run body exhausted (rounds + 0) index state = _ := run_continues shorter 0
  refine ⟨front, middle, shorter, ?_⟩
  rw [Nat.add_zero] at whole
  rw [whole, run, List.append_nil]

/-- The loop shows what the rounds that it gets to show. -/
theorem mem_run_iff {event : ε} : ∀ {rounds index : Nat} {state : σ},
    event ∈ (run body exhausted rounds index state).1 ↔
      ∃ count < rounds, ∃ events last, Continues body index state count events last ∧
        event ∈ (body (index + count) last).events := by
  intro rounds
  induction rounds with
  | zero => simp [run]
  | succ rounds ih =>
    intro index state
    constructor
    · intro member
      cases next : (body index state).next with
      | inr result =>
        rw [run_return next] at member
        exact ⟨0, Nat.succ_pos rounds, [], state, .done index state, member⟩
      | inl later =>
        rw [run_next next, List.mem_append] at member
        rcases member with first | rest
        · exact ⟨0, Nat.succ_pos rounds, [], state, .done index state, first⟩
        · obtain ⟨count, bound, events, last, chain, shown⟩ := ih.mp rest
          refine ⟨count + 1, Nat.succ_lt_succ bound, _, last, .step next chain, ?_⟩
          rw [Nat.add_assoc, Nat.add_comm 1 count] at shown
          exact shown
    · rintro ⟨count, bound, events, last, chain, shown⟩
      obtain ⟨spare, left⟩ : ∃ spare, rounds + 1 = count + (spare + 1) :=
        ⟨rounds - count, by omega⟩
      rw [left, run_continues chain, List.mem_append]
      right
      cases next : (body (index + count) last).next with
      | inr result =>
        rw [run_return next]
        exact shown
      | inl later =>
        rw [run_next next]
        exact List.mem_append_left _ shown

/-- The rule of the loop: what holds of the index, the events so far and the state, and is kept by every
round that goes on, leads to what holds of all events and the result. -/
theorem run_rule {limit : Nat} (Holds : Nat → List ε → σ → Prop) (Post : List ε → ρ → Prop)
    (goes : ∀ {index past state next}, index < limit → Holds index past state →
      (body index state).next = .inl next → Holds (index + 1) (past ++ (body index state).events) next)
    (returns : ∀ {index past state result}, index < limit → Holds index past state →
      (body index state).next = .inr result → Post (past ++ (body index state).events) result)
    (exhausts : ∀ {past state}, Holds limit past state → Post past exhausted) (rounds : Nat) :
    ∀ {index past state}, index + rounds = limit → Holds index past state →
      Post (past ++ (run body exhausted rounds index state).1)
        (run body exhausted rounds index state).2 := by
  induction rounds with
  | zero =>
    intro index past state left holds
    rw [Nat.add_zero] at left
    rw [run, List.append_nil]
    exact exhausts (left ▸ holds)
  | succ rounds ih =>
    intro index past state left holds
    have within : index < limit := by omega
    cases next : (body index state).next with
    | inr result =>
      rw [run_return next]
      exact returns within holds next
    | inl later =>
      have rest := ih (by omega) (goes within holds next)
      rw [run_next next, ← List.append_assoc]
      exact rest

end Rules

end Rcurl.BoundedLoop
