import AgentResolver.Interaction.Run

/-!
# Runs that agree

Two programs agree up to a relation on their results when from every trace they add the same events
and either return related results or throw the same exception. Agreement is kept by sequencing
(`agree_bind`), so two programs that differ in one part agree if the parts do.
-/

namespace Interaction

variable {ε χ α β γ δ : Type}

/-- Both outcomes are results that are related, or the same exception. -/
inductive OutcomesAgree (r : α → β → Prop) : Except χ α → Except χ β → Prop where
  | returned {a : α} {b : β} (h : r a b) : OutcomesAgree r (.ok a) (.ok b)
  | thrown (e : χ) : OutcomesAgree r (.error e) (.error e)

theorem OutcomesAgree.mono {r r' : α → β → Prop} {outcome : Except χ α} {outcome' : Except χ β}
    (h : OutcomesAgree r outcome outcome') (hr : ∀ a b, r a b → r' a b) :
    OutcomesAgree r' outcome outcome' := by
  cases h with
  | returned h => exact .returned (hr _ _ h)
  | thrown e => exact .thrown e

namespace Run

/-- The two programs add the same events, and their outcomes agree. -/
def AgreeOn (r : α → β → Prop) (x : Run ε χ α) (y : Run ε χ β) : Prop :=
  ∀ trace, (x trace).2 = (y trace).2 ∧ OutcomesAgree r (x trace).1 (y trace).1

variable {r : α → β → Prop} {s : γ → δ → Prop}

theorem agree_pure {a : α} {b : β} (h : r a b) :
    AgreeOn r (Pure.pure a : Run ε χ α) (Pure.pure b) :=
  fun _ => ⟨rfl, .returned h⟩

/-- Every program agrees with itself. -/
theorem agree_self (x : Run ε χ α) : AgreeOn Eq x x := by
  intro trace
  refine ⟨rfl, ?_⟩
  cases (x trace).1 with
  | ok a => exact .returned rfl
  | error e => exact .thrown e

theorem agree_of_eq {x y : Run ε χ α} (h : ∀ trace, x trace = y trace) : AgreeOn Eq x y := by
  obtain rfl : x = y := funext h
  exact agree_self x

theorem AgreeOn.mono {r' : α → β → Prop} {x : Run ε χ α} {y : Run ε χ β} (h : AgreeOn r x y)
    (hr : ∀ a b, r a b → r' a b) : AgreeOn r' x y :=
  fun trace => ⟨(h trace).1, (h trace).2.mono hr⟩

/-- Sequences agree when their parts do. -/
theorem agree_bind {x : Run ε χ α} {y : Run ε χ β} {f : α → Run ε χ γ} {g : β → Run ε χ δ}
    (hx : AgreeOn r x y) (hf : ∀ a b, r a b → AgreeOn s (f a) (g b)) :
    AgreeOn s (x >>= f) (y >>= g) := by
  intro trace
  obtain ⟨htrace, houtcome⟩ := hx trace
  rw [bind_apply, bind_apply]
  cases hxtrace : x trace with
  | mk outcome next =>
      cases hytrace : y trace with
      | mk outcome' next' =>
          rw [hxtrace, hytrace] at htrace houtcome
          -- From here on the two programs run from the same trace.
          obtain rfl : next = next' := htrace
          cases houtcome with
          | returned h => exact hf _ _ h next
          | thrown e => exact ⟨rfl, .thrown e⟩

end Run

end Interaction
