/-!
# Runs against an environment

A `Run` is a program that exchanges events with its environment and may throw. It is given the
trace of the events so far and returns an outcome with the extended trace, so that an environment
can answer each call depending on everything that happened before, and the events of a run that
throws are not lost.

`Emits p x` says that every event that `x` adds satisfies `p`.
-/

namespace Interaction

variable {ε χ α β : Type}

/-- A program with events `ε`, exceptions `χ` and results `α`. -/
def Run (ε χ α : Type) : Type := List ε → Except χ α × List ε

namespace Run

/-- The program that returns `a`. -/
def pure (a : α) : Run ε χ α := fun trace => (.ok a, trace)

/-- The program that throws `e`. -/
def throw (e : χ) : Run ε χ α := fun trace => (.error e, trace)

/-- Sequencing: an exception of the first program is passed on. -/
def bind (x : Run ε χ α) (f : α → Run ε χ β) : Run ε χ β := fun trace =>
  match x trace with
  | (.ok a, trace) => f a trace
  | (.error e, trace) => (.error e, trace)

instance : Monad (Run ε χ) where
  pure := pure
  bind := bind

/-- The result of a computation without events. -/
def lift (outcome : Except χ α) : Run ε χ α := fun trace => (outcome, trace)

/-- One exchange: the environment's answer depends on the trace before the event. -/
def call (event : ε) (answer : List ε → Except χ α) : Run ε χ α := fun trace =>
  (answer trace, trace ++ [event])

/-- `try x`, with the exception as a value. -/
def attempt (x : Run ε χ α) : Run ε χ (Except χ α) := fun trace =>
  let (outcome, trace) := x trace
  (.ok outcome, trace)

@[simp] theorem pure_apply (a : α) (trace : List ε) :
    (Pure.pure a : Run ε χ α) trace = (.ok a, trace) := rfl

@[simp] theorem throw_apply (e : χ) (trace : List ε) :
    (throw e : Run ε χ α) trace = (.error e, trace) := rfl

@[simp] theorem lift_apply (outcome : Except χ α) (trace : List ε) :
    (lift outcome : Run ε χ α) trace = (outcome, trace) := rfl

@[simp] theorem call_apply (event : ε) (answer : List ε → Except χ α) (trace : List ε) :
    call event answer trace = (answer trace, trace ++ [event]) := rfl

@[simp] theorem attempt_apply (x : Run ε χ α) (trace : List ε) :
    attempt x trace = (.ok (x trace).1, (x trace).2) := rfl

theorem bind_apply (x : Run ε χ α) (f : α → Run ε χ β) (trace : List ε) :
    (x >>= f) trace =
      match x trace with
      | (.ok a, trace) => f a trace
      | (.error e, trace) => (.error e, trace) := rfl

/-- Sequencing after a program that returns. -/
theorem bind_ok {x : Run ε χ α} {f : α → Run ε χ β} {trace next : List ε} {a : α}
    (h : x trace = (.ok a, next)) : (x >>= f) trace = f a next := by
  rw [bind_apply, h]

/-- Sequencing after a program that throws. -/
theorem bind_error {x : Run ε χ α} {f : α → Run ε χ β} {trace next : List ε} {e : χ}
    (h : x trace = (.error e, next)) : (x >>= f) trace = (.error e, next) := by
  rw [bind_apply, h]

/-- A sequence returns only when both programs do. -/
theorem bind_eq_ok {x : Run ε χ α} {f : α → Run ε χ β} {trace last : List ε} {b : β}
    (h : (x >>= f) trace = (.ok b, last)) :
    ∃ a next, x trace = (.ok a, next) ∧ f a next = (.ok b, last) := by
  rw [bind_apply] at h
  cases hx : x trace with
  | mk outcome next =>
      cases outcome with
      | ok a => exact ⟨a, next, rfl, by simpa [hx] using h⟩
      | error e => simp [hx] at h

/-- A computation behind a program adds no events. -/
theorem bind_pure_trace (x : Run ε χ α) (f : α → β) (trace : List ε) :
    ((x >>= fun a => Pure.pure (f a)) trace).2 = (x trace).2 := by
  rw [bind_apply]
  cases x trace with
  | mk outcome next =>
      cases outcome with
      | ok a => rfl
      | error e => rfl

/-- Every event that the program adds to any trace satisfies `p`. -/
def Emits (p : ε → Prop) (x : Run ε χ α) : Prop :=
  ∀ trace, ∃ added, (x trace).2 = trace ++ added ∧ ∀ event ∈ added, p event

variable {p : ε → Prop}

theorem emits_pure (a : α) : Emits p (Pure.pure a : Run ε χ α) :=
  fun trace => ⟨[], by simp, by simp⟩

end Run

end Interaction
