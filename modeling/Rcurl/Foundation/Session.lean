import Mathlib.Tactic.Common

/-!
# Sessions of fallible steps

A program that issues steps to the outside one by one, and a world that lets each step fail or
succeed with a payload. A program may demand a step, so that its failure stops the program with a
fault, or look at the reply itself. A run is the trace of the steps and the value or the fault.
`Demands` is the discipline of a program that demands all its steps: if it comes to a value, every
step of the trace succeeded.
-/

namespace Rcurl.Session

/-- A program: its steps may carry a payload back, its end is a value or a fault. -/
inductive Program (Step : Type) (Payload : Step → Type) (Fault α : Type) where
  /-- The value. -/
  | done (value : α)
  /-- The fault. -/
  | stop (fault : Fault)
  /-- A step, and what follows its reply. -/
  | issue (step : Step) (next : Option (Payload step) → Program Step Payload Fault α)

/-- How the outside replies: no payload is a failure. -/
abbrev Replies {Step : Type} (Payload : Step → Type) := (step : Step) → Option (Payload step)

variable {Step : Type} {Payload : Step → Type} {Fault α β : Type}

namespace Program

/-- One program after another. -/
def bind (first : Program Step Payload Fault α) (second : α → Program Step Payload Fault β) :
    Program Step Payload Fault β :=
  match first with
  | done value => second value
  | stop fault => stop fault
  | issue step next => issue step fun reply => (next reply).bind second

instance : Monad (Program Step Payload Fault) where
  pure := done
  bind := bind

/-- A step that must succeed. -/
def demand (step : Step) (fault : Fault) : Program Step Payload Fault (Payload step) :=
  issue step fun reply => match reply with
    | some payload => done payload
    | none => stop fault

/-- A step whose reply is thrown away. -/
def ignore (step : Step) : Program Step Payload Fault Unit := issue step fun _ => done ()

/-- A value that must exist. -/
def require (value : Option α) (fault : Fault) : Program Step Payload Fault α :=
  match value with
  | some value => done value
  | none => stop fault

/-- A run: the steps in order, and the value or the fault. -/
def run (world : Replies Payload) : Program Step Payload Fault α → List Step × Except Fault α
  | done value => ([], .ok value)
  | stop fault => ([], .error fault)
  | issue step next => (step :: (run world (next (world step))).1, (run world (next (world step))).2)

/-- Every step it may issue is of a kind. -/
def Issues (Kind : Step → Prop) : Program Step Payload Fault α → Prop
  | done _ => True
  | stop _ => True
  | issue step next => Kind step ∧ ∀ reply, Issues Kind (next reply)

/-- Every step is demanded, and the faults are of a kind. -/
def Demands (Allowed : Fault → Prop) : Program Step Payload Fault α → Prop
  | done _ => True
  | stop fault => Allowed fault
  | issue _ next =>
    (∃ fault, Allowed fault ∧ next none = stop fault) ∧
      ∀ payload, Demands Allowed (next (some payload))

end Program

open Program

section Runs

variable {world : Replies Payload}

@[simp] theorem run_pure (value : α) :
    run world (pure value : Program Step Payload Fault α) = ([], .ok value) := rfl

/-- A program that stops keeps the second from starting. -/
theorem run_bind_error {first : Program Step Payload Fault α}
    {second : α → Program Step Payload Fault β} {trace : List Step} {fault : Fault}
    (stops : run world first = (trace, .error fault)) :
    run world (first >>= second) = (trace, .error fault) := by
  show run world (first.bind second) = _
  induction first generalizing trace with
  | done value => simp [run] at stops
  | stop known =>
    rw [run, Prod.mk.injEq, Except.error.injEq] at stops
    rw [← stops.1, ← stops.2]
    rfl
  | issue step next ih =>
    rw [run, Prod.mk.injEq] at stops
    rw [Program.bind, run, ih (world step) (Prod.ext rfl stops.2), ← stops.1]

/-- A program that comes to a value hands it to the second. -/
theorem run_bind_ok {first : Program Step Payload Fault α}
    {second : α → Program Step Payload Fault β} {trace : List Step} {value : α}
    (comes : run world first = (trace, .ok value)) :
    run world (first >>= second) =
      (trace ++ (run world (second value)).1, (run world (second value)).2) := by
  show run world (first.bind second) = _
  induction first generalizing trace with
  | done known =>
    rw [run, Prod.mk.injEq, Except.ok.injEq] at comes
    rw [← comes.1, comes.2]
    rfl
  | stop fault => simp [run] at comes
  | issue step next ih =>
    rw [run, Prod.mk.injEq] at comes
    rw [Program.bind, run, ih (world step) (Prod.ext rfl comes.2), ← comes.1]
    rfl

/-- The trace of a sequence: the second program adds its steps when the first comes to a value. -/
theorem trace_bind (first : Program Step Payload Fault α)
    (second : α → Program Step Payload Fault β) :
    (run world (first >>= second)).1 =
      (run world first).1 ++ match (run world first).2 with
        | .ok value => (run world (second value)).1
        | .error _ => [] := by
  cases ends : (run world first).2 with
  | error fault => rw [run_bind_error (Prod.ext rfl ends), List.append_nil]
  | ok value => rw [run_bind_ok (Prod.ext rfl ends)]

/-- The trace of a demanded step. -/
@[simp] theorem trace_demand (step : Step) (fault : Fault) :
    (run world (demand step fault : Program Step Payload Fault (Payload step))).1 = [step] := by
  rw [demand, run]
  cases world step with
  | none => rfl
  | some payload => rfl

/-- A demanded step comes first: what follows starts from its payload. -/
theorem run_demand_bind (step : Step) (fault : Fault)
    (later : Payload step → Program Step Payload Fault α) :
    run world (demand step fault >>= later) =
      match world step with
      | some payload => (step :: (run world (later payload)).1, (run world (later payload)).2)
      | none => ([step], .error fault) := by
  show run world ((demand step fault).bind later) = _
  rw [demand, Program.bind, run]
  cases world step with
  | none => rfl
  | some payload => rfl

/-- A required value comes first. -/
theorem run_require_bind (value : Option α) (fault : Fault)
    (later : α → Program Step Payload Fault β) :
    run world (require value fault >>= later) =
      match value with
      | some value => run world (later value)
      | none => ([], .error fault) := by
  cases value with
  | none => rfl
  | some value => rfl

/-- A step whose reply is thrown away comes first. -/
theorem run_ignore_bind (step : Step) (later : Unit → Program Step Payload Fault α) :
    run world (ignore step >>= later) =
      (step :: (run world (later ())).1, (run world (later ())).2) := rfl

/-- The program comes to a value. -/
def Comes (world : Replies Payload) (program : Program Step Payload Fault α) (value : α) : Prop :=
  (run world program).2 = .ok value

@[simp] theorem comes_pure {value other : α} :
    Comes world (pure value : Program Step Payload Fault α) other ↔ value = other :=
  Except.ok.injEq value other ▸ Iff.rfl

@[simp] theorem comes_stop {fault : Fault} {value : α} :
    ¬ Comes world (stop fault : Program Step Payload Fault α) value := nofun

/-- A demanded step comes to its payload. -/
@[simp] theorem comes_demand {step : Step} {fault : Fault} {payload : Payload step} :
    Comes world (demand step fault) payload ↔ world step = some payload := by
  rw [Comes, demand, run]
  cases world step with
  | none => simp [run]
  | some known => simp [run]

/-- A required value is come to. -/
@[simp] theorem comes_require {known : Option α} {fault : Fault} {value : α} :
    Comes world (require known fault : Program Step Payload Fault α) value ↔ known = some value := by
  cases known with
  | none => simp [require]
  | some other => exact comes_pure.trans (by rw [Option.some.injEq])

/-- A sequence comes to a value when both its programs do. -/
@[simp] theorem comes_bind {first : Program Step Payload Fault α}
    {second : α → Program Step Payload Fault β} {value : β} :
    Comes world (first >>= second) value ↔
      ∃ middle, Comes world first middle ∧ Comes world (second middle) value := by
  cases ends : (run world first).2 with
  | error fault =>
    have stops : run world (first >>= second) = ((run world first).1, .error fault) :=
      run_bind_error (Prod.ext rfl ends)
    simp [Comes, stops, ends]
  | ok middle =>
    have goes : run world (first >>= second) = ((run world first).1 ++
        (run world (second middle)).1, (run world (second middle)).2) :=
      run_bind_ok (Prod.ext rfl ends)
    rw [Comes, goes]
    simp [Comes, ends]

end Runs

section Demands

variable {Allowed : Fault → Prop}

/-- A demanded step is demanded. -/
theorem demands_demand {step : Step} {fault : Fault} (allowed : Allowed fault) :
    Demands Allowed (demand step fault : Program Step Payload Fault (Payload step)) :=
  ⟨⟨fault, allowed, rfl⟩, fun _ => trivial⟩

/-- Requiring a value issues no step. -/
theorem demands_require {value : Option α} {fault : Fault} (allowed : Allowed fault) :
    Demands Allowed (require value fault : Program Step Payload Fault α) := by
  cases value with
  | none => exact allowed
  | some value => trivial

/-- Demanding programs compose. -/
theorem demands_bind {first : Program Step Payload Fault α}
    {second : α → Program Step Payload Fault β} (demands : Demands Allowed first)
    (later : ∀ value, Demands Allowed (second value)) : Demands Allowed (first >>= second) := by
  show Demands Allowed (first.bind second)
  induction first with
  | done value => exact later value
  | stop fault => exact demands
  | issue step next ih =>
    obtain ⟨⟨fault, allowed, stops⟩, succeeds⟩ := demands
    refine ⟨⟨fault, allowed, ?_⟩, fun payload => ih (some payload) (succeeds payload)⟩
    show (next none).bind second = stop fault
    rw [stops]
    rfl

/-- A demanding program that comes to a value issued only steps that succeeded. -/
theorem Program.Demands.succeed {program : Program Step Payload Fault α} {world : Replies Payload}
    {value : α} (demands : Demands Allowed program) (comes : (run world program).2 = .ok value) :
    ∀ step ∈ (run world program).1, (world step).isSome = true := by
  induction program with
  | done known => exact fun step absent => (List.not_mem_nil absent).elim
  | stop fault => exact fun step absent => (List.not_mem_nil absent).elim
  | issue step next ih =>
    obtain ⟨⟨fault, _, stops⟩, succeeds⟩ := demands
    rw [run] at comes ⊢
    cases replies : world step with
    | none =>
      rw [replies, stops] at comes
      contradiction
    | some payload =>
      rw [replies] at comes
      intro other member
      rcases List.mem_cons.mp member with rfl | rest
      · rw [replies]
        rfl
      · exact ih (some payload) (succeeds payload) comes other rest

/-- A demanding program that stops does so with an allowed fault. -/
theorem Program.Demands.stops {program : Program Step Payload Fault α} {world : Replies Payload}
    {fault : Fault} (demands : Demands Allowed program)
    (stops : (run world program).2 = .error fault) : Allowed fault := by
  induction program with
  | done known => contradiction
  | stop known =>
    rw [run] at stops
    rw [← Except.error.inj stops]
    exact demands
  | issue step next ih =>
    obtain ⟨⟨known, allowed, same⟩, succeeds⟩ := demands
    rw [run] at stops
    cases replies : world step with
    | none =>
      rw [replies, same] at stops
      rw [← Except.error.inj stops]
      exact allowed
    | some payload =>
      rw [replies] at stops
      exact ih (some payload) (succeeds payload) stops

end Demands

section Issues

variable {Kind : Step → Prop}

/-- A demanded step is issued. -/
theorem issues_demand {step : Step} {fault : Fault} (kind : Kind step) :
    Issues Kind (demand step fault : Program Step Payload Fault (Payload step)) := by
  refine ⟨kind, fun reply => ?_⟩
  cases reply with
  | none => trivial
  | some payload => trivial

/-- A step whose reply is thrown away is issued. -/
theorem issues_ignore {step : Step} (kind : Kind step) :
    Issues Kind (ignore step : Program Step Payload Fault Unit) :=
  ⟨kind, fun _ => trivial⟩

/-- Requiring a value issues nothing. -/
theorem issues_require {value : Option α} {fault : Fault} :
    Issues Kind (require value fault : Program Step Payload Fault α) := by
  cases value with
  | none => trivial
  | some value => trivial

/-- A sequence issues what its programs issue. -/
theorem issues_bind {first : Program Step Payload Fault α}
    {second : α → Program Step Payload Fault β} (issues : Issues Kind first)
    (later : ∀ value, Issues Kind (second value)) : Issues Kind (first >>= second) := by
  show Issues Kind (first.bind second)
  induction first with
  | done value => exact later value
  | stop fault => trivial
  | issue step next ih => exact ⟨issues.1, fun reply => ih reply (issues.2 reply)⟩

/-- Every step of a run is of the kind the program issues. -/
theorem Program.Issues.trace {program : Program Step Payload Fault α} {world : Replies Payload}
    (issues : Issues Kind program) : ∀ step ∈ (run world program).1, Kind step := by
  induction program with
  | done value => exact fun step absent => (List.not_mem_nil absent).elim
  | stop fault => exact fun step absent => (List.not_mem_nil absent).elim
  | issue step next ih =>
    rw [run]
    intro other member
    rcases List.mem_cons.mp member with rfl | rest
    · exact issues.1
    · exact ih (world step) (issues.2 (world step)) other rest

end Issues

section Guarded

variable {Guard Waits : Step → Prop}

/-- Every step that waits comes after one that it waits for. -/
def Guarded (Guard Waits : Step → Prop) (trace : List Step) : Prop :=
  ∀ before step after, trace = before ++ step :: after → Waits step → ∃ earlier ∈ before, Guard earlier

/-- A trace without steps that wait. -/
theorem guarded_of_none {trace : List Step} (none : ∀ step ∈ trace, ¬ Waits step) :
    Guarded Guard Waits trace := by
  intro before step after same waits
  have member : step ∈ trace := by
    rw [same]
    exact List.mem_append_right before List.mem_cons_self
  exact (none step member waits).elim

/-- The first step must not wait; after it, either it is waited for or the rest is guarded. -/
theorem guarded_cons {step : Step} {trace : List Step} :
    Guarded Guard Waits (step :: trace) ↔
      ¬ Waits step ∧ (Guard step ∨ Guarded Guard Waits trace) := by
  constructor
  · intro guarded
    have first : ¬ Waits step := by
      intro waits
      obtain ⟨earlier, member, _⟩ := guarded [] step trace rfl waits
      exact List.not_mem_nil member
    refine ⟨first, ?_⟩
    by_cases guard : Guard step
    · exact Or.inl guard
    · apply Or.inr
      intro before later after same waits
      have whole : step :: trace = (step :: before) ++ later :: after := by rw [same, List.cons_append]
      obtain ⟨earlier, member, opens⟩ := guarded (step :: before) later after whole waits
      rcases List.mem_cons.mp member with rfl | rest
      · exact (guard opens).elim
      · exact ⟨earlier, rest, opens⟩
  · rintro ⟨first, rest⟩ before later after same waits
    cases before with
    | nil =>
      rw [List.nil_append, List.cons.injEq] at same
      rw [← same.1] at waits
      exact (first waits).elim
    | cons head before =>
      rw [List.cons_append, List.cons.injEq] at same
      rcases rest with guard | guarded
      · exact ⟨head, List.mem_cons_self, same.1 ▸ guard⟩
      · obtain ⟨earlier, member, opens⟩ := guarded before later after same.2 waits
        exact ⟨earlier, List.mem_cons_of_mem head member, opens⟩

/-- Steps that do not wait may be added at the end. -/
theorem guarded_append_iff {trace rest : List Step} (none : ∀ step ∈ rest, ¬ Waits step) :
    Guarded Guard Waits (trace ++ rest) ↔ Guarded Guard Waits trace := by
  induction trace with
  | nil => exact iff_of_true (guarded_of_none none) (guarded_of_none (by simp))
  | cons step trace ih => rw [List.cons_append, guarded_cons, guarded_cons, ih]

/-- A required value keeps the order. -/
theorem guarded_require_bind_iff {world : Replies Payload} {value : Option α} {fault : Fault}
    {later : α → Program Step Payload Fault β} :
    Guarded Guard Waits (run world (require value fault >>= later)).1 ↔
      ∀ known, value = some known → Guarded Guard Waits (run world (later known)).1 := by
  rw [run_require_bind]
  cases value with
  | none => exact iff_of_true (guarded_of_none (by simp)) nofun
  | some value => simp

/-- A demanded step must not wait; when it succeeds, it is waited for or the rest keeps the order. -/
theorem guarded_demand_bind_iff {world : Replies Payload} {step : Step} {fault : Fault}
    {later : Payload step → Program Step Payload Fault α} :
    Guarded Guard Waits (run world (demand step fault >>= later)).1 ↔
      ¬ Waits step ∧ ∀ payload, world step = some payload →
        Guard step ∨ Guarded Guard Waits (run world (later payload)).1 := by
  rw [run_demand_bind]
  cases world step with
  | none =>
    have alone : Guarded Guard Waits [step] ↔ ¬ Waits step :=
      guarded_cons.trans (and_iff_left (Or.inr (guarded_of_none (by simp))))
    simp [alone]
  | some payload => simp [guarded_cons]

/-- A program without steps that wait may follow. -/
theorem guarded_bind_iff {world : Replies Payload} {first : Program Step Payload Fault α}
    {second : α → Program Step Payload Fault β}
    (later : ∀ value, Issues (¬ Waits ·) (second value)) :
    Guarded Guard Waits (run world (first >>= second)).1 ↔
      Guarded Guard Waits (run world first).1 := by
  rw [trace_bind]
  apply guarded_append_iff
  cases (run world first).2 with
  | error fault => exact fun step absent => (List.not_mem_nil absent).elim
  | ok value => exact (later value).trace

end Guarded

end Rcurl.Session
