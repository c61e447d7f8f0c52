import Mathlib.Data.Option.Basic

/-!
# Machines driven by events

A machine has a partial step function: `none` says that the event cannot occur in the state. The
rules below reduce a property of all runs to one step. `AllSteps` restricts a run by a condition
on each event and the state it meets, so that a property that only holds of some runs can be
stated together with the runs it holds of.
-/

namespace Interaction

variable {σ ε : Type}

/-- The state after a list of events. -/
def runEvents (step : σ → ε → Option σ) (state : σ) : List ε → Option σ
  | [] => some state
  | event :: rest => step state event >>= fun next => runEvents step next rest

/-- Every event of the run that does occur meets a state that the condition allows. -/
def AllSteps (step : σ → ε → Option σ) (condition : σ → ε → Prop) (state : σ) : List ε → Prop
  | [] => True
  | event :: rest =>
      condition state event ∧
        ∀ next, step state event = some next → AllSteps step condition next rest

/-- A run can be checked against a condition that can be checked. -/
instance decidableAllSteps (step : σ → ε → Option σ) (condition : σ → ε → Prop)
    [∀ state event, Decidable (condition state event)] (state : σ) :
    ∀ events, Decidable (AllSteps step condition state events)
  | [] => isTrue trivial
  | event :: rest =>
      match h : step state event with
      | none => decidable_of_iff (condition state event) (by simp [AllSteps, h])
      | some next =>
          have := decidableAllSteps step condition next rest
          decidable_of_iff (condition state event ∧ AllSteps step condition next rest)
            (by simp [AllSteps, h])

section Rules

variable {step : σ → ε → Option σ}

@[simp] theorem run_events_nil (state : σ) : runEvents step state [] = some state := rfl

/-- A nonempty run is a step and a run from the state it leads to. -/
theorem run_events_cons {state final : σ} {event : ε} {rest : List ε} :
    runEvents step state (event :: rest) = some final ↔
      ∃ next, step state event = some next ∧ runEvents step next rest = some final :=
  Option.bind_eq_some_iff

/-- A run over two lists of events is a run over the first and one from the state it leads to. -/
theorem run_events_append (state : σ) (first second : List ε) :
    runEvents step state (first ++ second) =
      (runEvents step state first >>= fun next => runEvents step next second) := by
  induction first generalizing state with
  | nil => rfl
  | cons event rest ih =>
      show (step state event >>= fun next => runEvents step next (rest ++ second)) =
        ((step state event >>= fun next => runEvents step next rest) >>= fun next =>
          runEvents step next second)
      simp [ih, Option.bind_assoc]

/-- Where any two events can be exchanged, a run does not depend on their order. -/
theorem run_events_perm
    (hcomm : ∀ state first second, (step state first >>= fun next => step next second) =
      (step state second >>= fun next => step next first))
    {events other : List ε} (h : events.Perm other) (state : σ) :
    runEvents step state events = runEvents step state other := by
  induction h generalizing state with
  | nil => rfl
  | cons event _ ih => exact congrArg (step state event >>= ·) (funext ih)
  | swap first second rest =>
      show (step state second >>= fun next => step next first >>= fun last =>
          runEvents step last rest) =
        (step state first >>= fun next => step next second >>= fun last =>
          runEvents step last rest)
      rw [← bind_assoc, ← bind_assoc, hcomm]
  | trans _ _ ihfirst ihsecond => exact (ihfirst state).trans (ihsecond state)

/-- What every allowed step preserves, every allowed run preserves. -/
theorem run_events_invariant {condition : σ → ε → Prop} {invariant : σ → Prop}
    (hstep : ∀ state event next, invariant state → condition state event →
      step state event = some next → invariant next)
    {events : List ε} {state final : σ} (hstate : invariant state)
    (hsteps : AllSteps step condition state events)
    (hrun : runEvents step state events = some final) : invariant final := by
  induction events generalizing state with
  | nil =>
      rw [run_events_nil] at hrun
      exact Option.some.inj hrun ▸ hstate
  | cons event rest ih =>
      obtain ⟨next, hnext, hrest⟩ := run_events_cons.mp hrun
      obtain ⟨hcondition, hsteps⟩ := hsteps
      exact ih (hstep state event next hstate hcondition hnext) (hsteps next hnext) hrest

/-- Every run satisfies the condition that is always true. -/
theorem all_steps_trivial (state : σ) (events : List ε) :
    AllSteps step (fun _ _ => True) state events := by
  induction events generalizing state with
  | nil => trivial
  | cons event rest ih => exact ⟨trivial, fun next _ => ih next⟩

/-- A condition on the events alone. -/
theorem all_steps_of_forall {condition : ε → Prop} {events : List ε}
    (h : ∀ event ∈ events, condition event) (state : σ) :
    AllSteps step (fun _ event => condition event) state events := by
  induction events generalizing state with
  | nil => trivial
  | cons event rest ih =>
      obtain ⟨hevent, hrest⟩ := List.forall_mem_cons.mp h
      exact ⟨hevent, fun next _ => ih hrest next⟩

/-- What every step preserves, every run preserves. -/
theorem run_events_preserves {invariant : σ → Prop}
    (hstep : ∀ state event next, invariant state → step state event = some next →
      invariant next)
    {events : List ε} {state final : σ} (hstate : invariant state)
    (hrun : runEvents step state events = some final) : invariant final :=
  run_events_invariant (fun state event next h _ => hstep state event next h) hstate
    (all_steps_trivial state events) hrun

end Rules

end Interaction
