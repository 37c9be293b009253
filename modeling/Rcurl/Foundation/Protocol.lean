import Rcurl.Foundation.Machine
import Rcurl.Foundation.Session

/-!
# Sessions that keep to a protocol

A protocol is a machine whose moves are the steps of a session. A program keeps to it from a phase when
every step it issues is possible there, whatever the outside replies, and what it comes to fits the
phase it leaves. Programs that keep to a protocol compose like Hoare triples, and every trace of such a
program is accepted. `Halts` adds that nothing is issued after a step that fails.
-/

namespace Rcurl.Session

variable {Step : Type} {Payload : Step → Type} {Fault α β σ : Type}

namespace Program

/-- The steps are accepted from a phase, and a value is come to in a phase that fits it. -/
def Keeps (protocol : σ → Step → Option σ) (Fits : α → σ → Prop) : σ → Program Step Payload Fault α → Prop
  | phase, done value => Fits value phase
  | _, stop _ => True
  | phase, issue step next =>
    ∃ later, protocol phase step = some later ∧ ∀ reply, Keeps protocol Fits later (next reply)

/-- After a step that fails no other is issued. -/
def Halts : Program Step Payload Fault α → Prop
  | done _ => True
  | stop _ => True
  | issue _ next => Issues (fun _ => False) (next none) ∧ ∀ payload, Halts (next (some payload))

end Program

open Program

section Keeps

variable {protocol : σ → Step → Option σ} {Fits : α → σ → Prop} {phase later : σ}

/-- A value that fits. -/
theorem keeps_pure {value : α} (fits : Fits value phase) :
    Keeps protocol Fits phase (pure value : Program Step Payload Fault α) := fits

/-- A demanded step that is accepted. -/
theorem keeps_demand {step : Step} {fault : Fault} {Fits : Payload step → σ → Prop}
    (accepted : protocol phase step = some later) (fits : ∀ payload, Fits payload later) :
    Keeps protocol Fits phase (demand step fault : Program Step Payload Fault (Payload step)) := by
  refine ⟨later, accepted, fun reply => ?_⟩
  cases reply with
  | none => trivial
  | some payload => exact fits payload

/-- A step that is accepted and whose reply is thrown away may come last. -/
theorem keeps_ignore_last {step : Step} {value : α} (accepted : protocol phase step = some later)
    (fits : Fits value later) : Keeps protocol Fits phase
      (ignore step >>= fun _ => pure value : Program Step Payload Fault α) :=
  ⟨later, accepted, fun _ => fits⟩

/-- Requiring a value issues nothing. -/
theorem keeps_require {value : Option α} {fault : Fault}
    (fits : ∀ known, value = some known → Fits known phase) :
    Keeps protocol Fits phase (require value fault : Program Step Payload Fault α) := by
  cases value with
  | none => trivial
  | some known => exact fits known rfl

/-- Programs that keep to a protocol compose. -/
theorem keeps_bind {Middle : α → σ → Prop} {Fits : β → σ → Prop} {first : Program Step Payload Fault α}
    {second : α → Program Step Payload Fault β} (keeps : Keeps protocol Middle phase first)
    (rest : ∀ value phase, Middle value phase → Keeps protocol Fits phase (second value)) :
    Keeps protocol Fits phase (first >>= second) := by
  show Keeps protocol Fits phase (first.bind second)
  induction first generalizing phase with
  | done value => exact rest value phase keeps
  | stop fault => trivial
  | issue step next ih =>
    obtain ⟨later, accepted, replies⟩ := keeps
    exact ⟨later, accepted, fun reply => ih reply (replies reply)⟩

/-- Every trace of a program that keeps to a protocol is accepted, and the phase it ends in fits the
value it comes to. -/
theorem Program.Keeps.accepts {program : Program Step Payload Fault α}
    (keeps : Keeps protocol Fits phase program) (world : Replies Payload) :
    ∃ last, Machine.run protocol phase (run world program).1 = some last ∧
      ∀ value, (run world program).2 = .ok value → Fits value last := by
  induction program generalizing phase with
  | done value =>
    refine ⟨phase, rfl, fun other same => ?_⟩
    rw [run] at same
    exact Except.ok.inj same ▸ keeps
  | stop fault =>
    refine ⟨phase, rfl, fun value same => ?_⟩
    rw [run] at same
    contradiction
  | issue step next ih =>
    obtain ⟨later, accepted, replies⟩ := keeps
    obtain ⟨last, ends, fits⟩ := ih (world step) (replies (world step))
    refine ⟨last, ?_, fits⟩
    rw [run]
    exact (Machine.run_cons_of_step accepted _).trans ends

end Keeps

section Halts

/-- A program that demands all its steps may come before one that halts. -/
theorem halts_bind {Allowed : Fault → Prop} {first : Program Step Payload Fault α}
    {second : α → Program Step Payload Fault β} (demands : Demands Allowed first)
    (rest : ∀ value, Halts (second value)) : Halts (first >>= second) := by
  show Halts (first.bind second)
  induction first with
  | done value => exact rest value
  | stop fault => trivial
  | issue step next ih =>
    obtain ⟨⟨fault, _, stops⟩, succeeds⟩ := demands
    refine ⟨?_, fun payload => ih (some payload) (succeeds payload)⟩
    show Issues _ ((next none).bind second)
    rw [stops]
    trivial

/-- A step whose reply is thrown away may come last. -/
theorem halts_ignore_last {step : Step} {value : α} :
    Halts (ignore step >>= fun _ => pure value : Program Step Payload Fault α) :=
  ⟨trivial, fun _ => trivial⟩

/-- A program that issues nothing has no trace. -/
theorem trace_eq_nil {world : Replies Payload} {program : Program Step Payload Fault α}
    (issues : Issues (fun _ => False) program) : (run world program).1 = [] := by
  cases program with
  | done value => rfl
  | stop fault => rfl
  | issue step next => exact issues.1.elim

/-- Every step of the trace but the last has succeeded. -/
theorem Program.Halts.succeed {program : Program Step Payload Fault α} (halts : Halts program)
    (world : Replies Payload) : ∀ {before after : List Step} {step : Step},
      (run world program).1 = before ++ step :: after → after ≠ [] → (world step).isSome = true := by
  induction program with
  | done value => exact fun same => absurd same.symm (by simp [run])
  | stop fault => exact fun same => absurd same.symm (by simp [run])
  | issue first next ih =>
    intro before after step same more
    rw [run] at same
    cases reply : world first with
    | none =>
      rw [reply, trace_eq_nil halts.1] at same
      cases before with
      | nil =>
        rw [List.nil_append, List.cons.injEq] at same
        exact (more same.2.symm).elim
      | cons head before =>
        rw [List.cons_append, List.cons.injEq] at same
        exact absurd same.2.symm (List.append_ne_nil_of_right_ne_nil before (List.cons_ne_nil step after))
    | some payload =>
      rw [reply] at same
      cases before with
      | nil =>
        rw [List.nil_append, List.cons.injEq] at same
        rw [← same.1, reply]
        rfl
      | cons head before =>
        rw [List.cons_append, List.cons.injEq] at same
        exact ih (some payload) (halts.2 payload) same.2 more

end Halts

end Rcurl.Session
