import AgentResolver.Interaction.Run

/-!
# Runs whose events are among a list

`Among calls x` says that the events of the program `x` stand in the list `calls`, in its order and
each at most as often: a run makes fewer calls than the list has when it throws or ends early. It is
closed under sequencing, so the list is read off the program.
-/

namespace Interaction

variable {ε χ α β : Type}

/-- A computation without events that returns has returned from its first part. -/
theorem bind_returns {x : Except χ α} {f : α → Except χ β} {b : β} (h : (x >>= f) = .ok b) :
    ∃ a, x = .ok a ∧ f a = .ok b := by
  cases x with
  | error e => cases h
  | ok a => exact ⟨a, rfl, h⟩

namespace Run

/-- Every run of the program adds a part of the list, in its order. -/
def Among (calls : List ε) (x : Run ε χ α) : Prop :=
  ∀ trace, ∃ added, (x trace).2 = trace ++ added ∧ added.Sublist calls

variable {calls first second : List ε}

theorem among_pure (a : α) : Among calls (Pure.pure a : Run ε χ α) :=
  fun trace => ⟨[], (List.append_nil trace).symm, List.nil_sublist _⟩

theorem among_throw (e : χ) : Among calls (throw e : Run ε χ α) :=
  fun trace => ⟨[], (List.append_nil trace).symm, List.nil_sublist _⟩

theorem among_call (event : ε) (answer : List ε → Except χ α) :
    Among [event] (call event answer) :=
  fun _ => ⟨[event], rfl, List.Sublist.refl _⟩

theorem Among.mono {x : Run ε χ α} (h : Among first x) (hsub : first.Sublist second) :
    Among second x := by
  intro trace
  obtain ⟨added, hadded, hfirst⟩ := h trace
  exact ⟨added, hadded, hfirst.trans hsub⟩

/-- What holds of every event of the list holds of every event of the program. -/
theorem Among.emits {p : ε → Prop} {x : Run ε χ α} (h : Among calls x)
    (hcalls : ∀ event ∈ calls, p event) : Emits p x := by
  intro trace
  obtain ⟨added, hadded, hsub⟩ := h trace
  exact ⟨added, hadded, fun event hevent => hcalls event (hsub.subset hevent)⟩

/-- The events of a sequence are those of its parts. The second part is only run with a result of
the first. -/
theorem among_bind_of_returned {x : Run ε χ α} {f : α → Run ε χ β} (hx : Among first x)
    (hf : ∀ a trace next, x trace = (.ok a, next) → Among second (f a)) :
    Among (first ++ second) (x >>= f) := by
  intro trace
  obtain ⟨added, hadded, hfirst⟩ := hx trace
  cases hrun : x trace with
  | mk outcome next =>
      rw [hrun] at hadded
      obtain rfl : next = trace ++ added := hadded
      cases outcome with
      | error e =>
          rw [bind_error hrun]
          exact ⟨added, rfl, hfirst.trans (List.sublist_append_left _ _)⟩
      | ok a =>
          rw [bind_ok hrun]
          obtain ⟨more, hmore, hsecond⟩ := hf a trace _ hrun (trace ++ added)
          exact ⟨added ++ more, by rw [hmore, List.append_assoc], hfirst.append hsecond⟩

theorem among_bind {x : Run ε χ α} {f : α → Run ε χ β} (hx : Among first x)
    (hf : ∀ a, Among second (f a)) : Among (first ++ second) (x >>= f) :=
  among_bind_of_returned hx fun a _ _ _ => hf a

/-- A program that is run with the result of a computation without events. -/
theorem among_lift_bind {outcome : Except χ α} {f : α → Run ε χ β}
    (hf : ∀ a, outcome = .ok a → Among calls (f a)) : Among calls (lift outcome >>= f) := by
  have hlift : Among [] (lift outcome : Run ε χ α) :=
    fun trace => ⟨[], (List.append_nil trace).symm, List.Sublist.refl _⟩
  exact among_bind_of_returned hlift fun a _ _ hrun => hf a (congrArg Prod.fst hrun)

end Run

end Interaction
