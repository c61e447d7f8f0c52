import AgentResolver.Interaction.Machine
import AgentResolver.Interaction.Process
import Mathlib.Data.List.Count
import Mathlib.Logic.Function.Basic

/-!
# Threads that take turns

A `Pool` is a family of threads in one environment. At each turn one thread gets the answer it
waits for; a schedule is any list of turns. The environment may remember what it was asked, and by
whom. `pool_explained` says that each thread then behaves as its process would alone in some
environment, so what holds of all solitary runs holds of every thread of every schedule.
`pool_isolated` says more of an environment without a memory: there the thread behaves as its
process does alone in this very environment, whatever the others do.
-/

namespace Interaction

variable {ι ε : Type} {ρ : ε → Type} {χ α : Type}

/-- Threads side by side, and the exchanges of all of them in the order they were made. -/
structure Pool (ι ε : Type) (ρ : ε → Type) (χ α : Type) where
  threads : ι → Thread ε ρ χ α
  history : List (ι × Exchange ε ρ χ)

/-- The environment of a pool. Its answer may depend on all exchanges so far and on who asks. -/
abbrev Environment (ι ε : Type) (ρ : ε → Type) (χ : Type) : Type :=
  List (ι × Exchange ε ρ χ) → ι → (event : ε) → Except χ (ρ event)

namespace Pool

/-- A pool before the first turn. -/
def start (processes : ι → Process ε ρ χ α) : Pool ι ε ρ χ α where
  threads i := .start (processes i)
  history := []

variable [DecidableEq ι]

/-- One turn. A thread that has ended cannot take one. -/
def turn (environment : Environment ι ε ρ χ) (pool : Pool ι ε ρ χ α) (i : ι) :
    Option (Pool ι ε ρ χ α) :=
  ((pool.threads i).resume (environment pool.history i)).map fun resumed =>
    { threads := Function.update pool.threads i resumed.2
      history := pool.history ++ [(i, resumed.1)] }

variable {environment : Environment ι ε ρ χ} {pool next : Pool ι ε ρ χ α} {i : ι}

/-- What a turn does: one exchange of one thread. -/
theorem turn_eq_some (h : pool.turn environment i = some next) :
    ∃ exchange, (next.threads i).origin = (pool.threads i).origin ∧
      (next.threads i).exchanges = (pool.threads i).exchanges ++ [exchange] ∧
      exchange.2 = environment pool.history i exchange.1 ∧
      ∀ j, j ≠ i → next.threads j = pool.threads j := by
  obtain ⟨resumed, hresumed, rfl⟩ := Option.map_eq_some_iff.mp h
  obtain ⟨horigin, hexchanges, hanswer⟩ := Thread.resume_eq_some hresumed
  refine ⟨resumed.1, ?_, ?_, hanswer, fun j hj => Function.update_of_ne hj _ _⟩
  · rw [← horigin]
    exact congrArg Thread.origin (Function.update_self i resumed.2 pool.threads)
  · rw [← hexchanges]
    exact congrArg Thread.exchanges (Function.update_self i resumed.2 pool.threads)

/-! ## Schedules -/

variable {processes : ι → Process ε ρ χ α} {schedule : List ι}

/-- Every thread of a schedule is one of the process it was started with. -/
theorem origin_of_schedule
    (h : runEvents (turn environment) (start processes) schedule = some pool) (i : ι) :
    (pool.threads i).origin = processes i := by
  refine @run_events_preserves _ _ (turn environment)
    (fun pool => (pool.threads i).origin = processes i) ?_ _ _ _ rfl h
  intro pool j next hpool hturn
  obtain ⟨_, horigin, -, -, hothers⟩ := turn_eq_some hturn
  by_cases hj : i = j
  · subst hj
    rw [horigin, hpool]
  · rw [hothers i hj, hpool]

/-- A thread has made as many exchanges as it had turns. -/
theorem length_exchanges_of_schedule {first : Pool ι ε ρ χ α}
    (h : runEvents (turn environment) first schedule = some pool) (i : ι) :
    (pool.threads i).exchanges.length =
      (first.threads i).exchanges.length + schedule.count i := by
  induction schedule generalizing first with
  | nil =>
      obtain rfl : first = pool := Option.some.inj h
      rfl
  | cons j rest ih =>
      obtain ⟨next, hnext, hrest⟩ := run_events_cons.mp h
      obtain ⟨exchange, -, hexchanges, -, hothers⟩ := turn_eq_some hnext
      rw [ih hrest, List.count_cons]
      by_cases hj : j = i
      · subst hj
        rw [hexchanges, List.length_append, List.length_singleton, if_pos (by simp)]
        omega
      · rw [hothers i fun heq => hj heq.symm, if_neg (by simpa using hj)]
        omega

/-- In every schedule, each thread does what its process does alone in some environment: its
events are the first ones of that run, and it has ended if and only if these are all of them. -/
theorem pool_explained (h : runEvents (turn environment) (start processes) schedule = some pool)
    (i : ι) (others : Answers ε ρ χ) :
    ∃ answers more, ((processes i).run answers []).2 = (pool.threads i).events ++ more ∧
      (more = [] ↔ (pool.threads i).outcome.isSome) ∧
      ∀ outcome, (pool.threads i).outcome = some outcome →
        ((processes i).run answers []).1 = outcome := by
  obtain ⟨answers, hanswers⟩ := (pool.threads i).exists_answered_by others
  obtain ⟨more, hmore⟩ := hanswers.run
  rw [origin_of_schedule h] at hmore
  exact ⟨answers, more, hmore⟩

/-! ## Environments without a memory -/

variable {fixed : (event : ε) → Except χ (ρ event)}

/-- All exchanges of a thread have the answers of the environment. -/
theorem answers_of_schedule
    (h : runEvents (turn fun _ _ => fixed) (start processes) schedule = some pool) (i : ι) :
    ∀ exchange ∈ (pool.threads i).exchanges, exchange.2 = fixed exchange.1 := by
  refine @run_events_preserves _ _ (turn fun _ _ => fixed)
    (fun pool => ∀ exchange ∈ (pool.threads i).exchanges, exchange.2 = fixed exchange.1)
    ?_ _ _ _ (fun exchange hmem => absurd hmem List.not_mem_nil) h
  intro pool j next hpool hturn exchange hmem
  obtain ⟨last, -, hexchanges, hlast, hothers⟩ := turn_eq_some hturn
  by_cases hj : i = j
  · subst hj
    rw [hexchanges, List.mem_append, List.mem_singleton] at hmem
    rcases hmem with hmem | rfl
    · exact hpool exchange hmem
    · exact hlast
  · rw [hothers i hj] at hmem
    exact hpool exchange hmem

/-- Without a memory in the environment, a thread of a schedule does what its process does alone
in it. -/
theorem pool_isolated
    (h : runEvents (turn fun _ _ => fixed) (start processes) schedule = some pool) (i : ι) :
    ∃ more, ((processes i).run (fun _ => fixed) []).2 = (pool.threads i).events ++ more ∧
      (more = [] ↔ (pool.threads i).outcome.isSome) ∧
      ∀ outcome, (pool.threads i).outcome = some outcome →
        ((processes i).run (fun _ => fixed) []).1 = outcome := by
  obtain ⟨more, hmore⟩ := (Thread.answered_by_fixed (answers_of_schedule h i)).run
  rw [origin_of_schedule h] at hmore
  exact ⟨more, hmore⟩

/-- A schedule gives a thread at most as many turns as its process has events alone, and it has
ended when it had all of them. -/
theorem turns_bounded
    (h : runEvents (turn fun _ _ => fixed) (start processes) schedule = some pool) (i : ι) :
    schedule.count i ≤ ((processes i).run (fun _ => fixed) []).2.length ∧
      (schedule.count i = ((processes i).run (fun _ => fixed) []).2.length ↔
        (pool.threads i).outcome.isSome) := by
  obtain ⟨more, hmore, hended, -⟩ := pool_isolated h i
  have hcount : (pool.threads i).exchanges.length = schedule.count i := by
    rw [length_exchanges_of_schedule h i]
    exact Nat.zero_add _
  have hlength : ((processes i).run (fun _ => fixed) []).2.length =
      schedule.count i + more.length := by
    rw [hmore, List.length_append, Thread.events, List.length_map, hcount]
  rw [hlength, ← hended, ← List.length_eq_zero_iff]
  omega

end Pool

end Interaction
