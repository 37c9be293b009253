import Mathlib.Tactic.Common

/-!
# Machines with moves that may be impossible

A machine takes a move in a state to a next state, or cannot. A run takes moves in order and is
impossible as soon as one of them is. A fact about every run is a fact about one move, in which the
moves so far may occur. The same run tells whether a protocol accepts a trace.
-/

namespace Rcurl.Machine

variable {σ μ : Type} (step : σ → μ → Option σ)

/-- Moves in order, from a state. -/
def run : σ → List μ → Option σ
  | state, [] => some state
  | state, move :: moves => (step state move).bind fun next => run next moves

/-- Some moves lead from a state to one where the goal holds. -/
def Reaches (state : σ) (Goal : σ → Prop) : Prop :=
  ∃ moves last, run step state moves = some last ∧ Goal last

variable {step} {state next last : σ} {move : μ} {Goal : σ → Prop}

@[simp] theorem run_nil : run step state [] = some state := rfl

/-- The first move, then the others. -/
theorem run_cons (move : μ) (moves : List μ) :
    run step state (move :: moves) = (step state move).bind fun next => run step next moves := rfl

/-- A run of one move. -/
@[simp] theorem run_singleton (move : μ) : run step state [move] = step state move := by
  rw [run_cons]
  exact Option.bind_fun_some _

/-- A move that is possible, then the others. -/
theorem run_cons_of_step (taken : step state move = some next) (moves : List μ) :
    run step state (move :: moves) = run step next moves := by
  rw [run_cons, taken, Option.bind_some]

/-- Moves after moves. -/
theorem run_append (first second : List μ) : ∀ {state : σ},
    run step state (first ++ second) = (run step state first).bind fun next => run step next second := by
  induction first with
  | nil => exact fun {state} => (Option.bind_some _ _).symm
  | cons move first ih =>
    intro state
    rw [List.cons_append, run_cons, run_cons, Option.bind_assoc]
    congr 1
    funext next
    exact ih

/-- What holds of the moves so far and the state at the start, and is kept by every move, holds after
every run. -/
theorem run_invariant (Holds : List μ → σ → Prop)
    (keeps : ∀ {past : List μ} {state next : σ} {move : μ}, Holds past state →
      step state move = some next → Holds (past ++ [move]) next) (moves : List μ) :
    ∀ (past : List μ) {state : σ}, Holds past state → run step state moves = some last →
      Holds (past ++ moves) last := by
  induction moves with
  | nil =>
    intro past state holds ends
    rw [List.append_nil, ← Option.some.inj ends]
    exact holds
  | cons move moves ih =>
    intro past state holds ends
    obtain ⟨next, taken, rest⟩ := Option.bind_eq_some_iff.mp ends
    have whole := ih (past ++ [move]) (keeps holds taken) rest
    rwa [List.append_assoc] at whole

/-- What holds of the state at the start, and is kept by every move, holds after every run. -/
theorem run_keeps {Holds : σ → Prop}
    (keeps : ∀ {state next : σ} {move : μ}, Holds state → step state move = some next → Holds next)
    {moves : List μ} (holds : Holds state) (ends : run step state moves = some last) : Holds last :=
  run_invariant (fun _ => Holds) keeps moves [] holds ends

/-- A goal that holds is reached. -/
theorem Reaches.here (holds : Goal state) : Reaches step state Goal := ⟨[], state, rfl, holds⟩

/-- A goal that is reached after some moves is reached. -/
theorem Reaches.after {moves : List μ} (taken : run step state moves = some next)
    (reached : Reaches step next Goal) : Reaches step state Goal := by
  obtain ⟨later, last, ends, holds⟩ := reached
  refine ⟨moves ++ later, last, ?_, holds⟩
  rw [run_append, taken, Option.bind_some, ends]

/-- A goal that is reached after one move is reached. -/
theorem Reaches.by_move (taken : step state move = some next) (reached : Reaches step next Goal) :
    Reaches step state Goal :=
  have single : run step state [move] = some next := by rw [run_singleton, taken]
  reached.after single

end Rcurl.Machine
