import AgentResolver.Interaction.Run
import Mathlib.Data.List.Induction

/-!
# Programs that wait

A `Process` is a program that stops at each exchange with its environment: it has ended, or it
waits for the answer to an event. Unlike a `Run`, it can be continued by anyone who has the answer,
so several processes can share an environment and take turns. `Process.run` is the run of a process
that nobody interrupts.
-/

namespace Interaction

variable {ε : Type} {ρ : ε → Type} {χ α β : Type}

/-- A program whose events `ε` are answered with values of `ρ`, or with exceptions. -/
inductive Process (ε : Type) (ρ : ε → Type) (χ α : Type) : Type where
  | done (outcome : Except χ α)
  | wait (event : ε) (next : Except χ (ρ event) → Process ε ρ χ α)

/-- An environment: its answer to an event depends on the events before. -/
abbrev Answers (ε : Type) (ρ : ε → Type) (χ : Type) : Type :=
  List ε → (event : ε) → Except χ (ρ event)

namespace Process

/-- Sequencing: an exception of the first program is passed on. -/
def bind : Process ε ρ χ α → (α → Process ε ρ χ β) → Process ε ρ χ β
  | .done (.ok a), f => f a
  | .done (.error e), _ => .done (.error e)
  | .wait event next, f => .wait event fun answer => (next answer).bind f

instance : Monad (Process ε ρ χ) where
  pure a := .done (.ok a)
  bind := bind

/-- One exchange. An exception that is the answer is thrown. -/
def call (event : ε) : Process ε ρ χ (ρ event) := .wait event .done

/-- The result of a computation without events. -/
def lift (outcome : Except χ α) : Process ε ρ χ α := .done outcome

/-- `try process`, with the exception as a value. -/
def attempt : Process ε ρ χ α → Process ε ρ χ (Except χ α)
  | .done outcome => .done (.ok outcome)
  | .wait event next => .wait event fun answer => (next answer).attempt

/-- The process alone in its environment. -/
def run (answers : Answers ε ρ χ) : Process ε ρ χ α → Run ε χ α
  | .done outcome => fun trace => (outcome, trace)
  | .wait event next => fun trace => (next (answers trace event)).run answers (trace ++ [event])

variable (answers : Answers ε ρ χ)

@[simp] theorem run_pure (a : α) :
    (Pure.pure a : Process ε ρ χ α).run answers = Pure.pure a := rfl

@[simp] theorem run_lift (outcome : Except χ α) :
    (lift outcome : Process ε ρ χ α).run answers = Run.lift outcome := rfl

@[simp] theorem run_call (event : ε) :
    (call event : Process ε ρ χ (ρ event)).run answers =
      Run.call event fun trace => answers trace event := rfl

/-- The run of a sequence is the sequence of the runs. -/
theorem run_bind (process : Process ε ρ χ α) (f : α → Process ε ρ χ β) :
    (process >>= f).run answers = process.run answers >>= fun a => (f a).run answers := by
  funext trace
  show (process.bind f).run answers trace = _
  induction process generalizing trace with
  | done outcome =>
      cases outcome with
      | ok a => rfl
      | error e => rfl
  | wait event next ih => exact ih (answers trace event) (trace ++ [event])

/-- The run of `attempt` is the attempt of the run. -/
theorem run_attempt (process : Process ε ρ χ α) :
    process.attempt.run answers = Run.attempt (process.run answers) := by
  funext trace
  induction process generalizing trace with
  | done outcome => rfl
  | wait event next ih => exact ih (answers trace event) (trace ++ [event])

/-- How the process has ended, if it has. -/
def outcome : Process ε ρ χ α → Option (Except χ α)
  | .done outcome => some outcome
  | .wait _ _ => none

/-- The event that the process waits for an answer to, if it has not ended. -/
def awaited : Process ε ρ χ α → Option ε
  | .done _ => none
  | .wait event _ => some event

/-- A run extends its trace, with the awaited event first, unless the process has ended. -/
theorem run_extends (process : Process ε ρ χ α) (trace : List ε) :
    ∃ added, (process.run answers trace).2 = trace ++ added ∧
      process.awaited.toList <+: added ∧ (added = [] ↔ process.outcome.isSome) := by
  induction process generalizing trace with
  | done outcome =>
      exact ⟨[], (List.append_nil trace).symm, List.prefix_refl [], fun _ => rfl, fun _ => rfl⟩
  | wait event next ih =>
      obtain ⟨added, hadded, -⟩ := ih (answers trace event) (trace ++ [event])
      refine ⟨event :: added, ?_, ⟨added, rfl⟩, ?_⟩
      · rw [List.append_cons]
        exact hadded
      · constructor <;> intro hnever <;> cases hnever

/-- A process that has ended adds nothing. -/
theorem run_of_outcome {process : Process ε ρ χ α} {outcome : Except χ α}
    (h : process.outcome = some outcome) (trace : List ε) :
    process.run answers trace = (outcome, trace) := by
  cases process with
  | done last => rw [← Option.some.inj h]; rfl
  | wait event next => cases h

end Process

/-! ## Processes with fewer events -/

section Translate

variable {δ : Type} {τ : δ → Type}

/-- A process with its events as events of another kind. -/
def Process.translate (embed : ε → δ) (read : ∀ event, τ (embed event) → ρ event) :
    Process ε ρ χ α → Process δ τ χ α
  | .done outcome => .done outcome
  | .wait event next =>
      .wait (embed event) fun answer => (next (answer.map (read event))).translate embed read

/-- The answers that reach the events of the first kind. -/
def Answers.restrict (embed : ε → δ) (read : ∀ event, τ (embed event) → ρ event)
    (answers : Answers δ τ χ) : Answers ε ρ χ :=
  fun trace event => (answers (trace.map embed) (embed event)).map (read event)

theorem Process.run_translate {embed : ε → δ} {read : ∀ event, τ (embed event) → ρ event}
    (answers : Answers δ τ χ) (process : Process ε ρ χ α) (trace : List ε) :
    (process.translate embed read).run answers (trace.map embed) =
      ((process.run (answers.restrict embed read) trace).1,
        (process.run (answers.restrict embed read) trace).2.map embed) := by
  induction process generalizing trace with
  | done outcome => rfl
  | wait event next ih =>
      have hnext := ih (answers.restrict embed read trace event) (trace ++ [event])
      rw [List.map_append] at hnext
      exact hnext

end Translate

/-! ## Exchanges -/

/-- An event with the answer to it. -/
abbrev Exchange (ε : Type) (ρ : ε → Type) (χ : Type) : Type :=
  Σ event : ε, Except χ (ρ event)

/-- Every exchange of the list meets the condition on the events before it, its event and its
answer. -/
def MeetsAll (condition : List ε → (event : ε) → Except χ (ρ event) → Prop)
    (exchanges : List (Exchange ε ρ χ)) : Prop :=
  ∀ before exchange after, exchanges = before ++ exchange :: after →
    condition (before.map Sigma.fst) exchange.1 exchange.2

/-- The answers of the list are those of an environment. -/
def AnsweredBy (answers : Answers ε ρ χ) (exchanges : List (Exchange ε ρ χ)) : Prop :=
  MeetsAll (fun trace event answer => answer = answers trace event) exchanges

section Meets

variable {condition : List ε → (event : ε) → Except χ (ρ event) → Prop}
  {exchanges : List (Exchange ε ρ χ)} {exchange : Exchange ε ρ χ}

theorem meets_nil : MeetsAll condition ([] : List (Exchange ε ρ χ)) := by
  intro before exchange after h
  cases List.append_eq_nil_iff.mp h.symm with
  | intro _ hnever => cases hnever

/-- A condition on the last exchange and on those before it. -/
theorem meets_snoc : MeetsAll condition (exchanges ++ [exchange]) ↔
    MeetsAll condition exchanges ∧
      condition (exchanges.map Sigma.fst) exchange.1 exchange.2 := by
  constructor
  · intro h
    refine ⟨fun before other after hsplit => h before other (after ++ [exchange]) ?_,
      h exchanges exchange [] rfl⟩
    rw [hsplit, List.append_assoc]
    rfl
  · rintro ⟨hearlier, hlast⟩ before other after hsplit
    cases after using List.reverseRecOn with
    | nil =>
        obtain ⟨rfl, hsame⟩ := List.append_inj' hsplit rfl
        cases hsame
        exact hlast
    | append_singleton after final =>
        rw [← List.cons_append, ← List.append_assoc] at hsplit
        exact hearlier before other after (List.append_inj' hsplit rfl).1

/-- A condition on the event and the answer alone. -/
theorem meets_of_forall {condition : (event : ε) → Except χ (ρ event) → Prop}
    (h : ∀ exchange ∈ exchanges, condition exchange.1 exchange.2) :
    MeetsAll (fun _ => condition) exchanges := by
  intro before exchange after hsplit
  exact h exchange (hsplit ▸ List.mem_append_right before List.mem_cons_self)

open Classical in
/-- The environment that answers as recorded, but makes the exchange after the trace. -/
noncomputable def giving (recorded : Answers ε ρ χ) (position : List ε)
    (exchange : Exchange ε ρ χ) : Answers ε ρ χ := fun trace event =>
  if h : trace = position ∧ exchange.1 = event then h.2 ▸ exchange.2 else recorded trace event

theorem giving_elsewhere {recorded : Answers ε ρ χ} {position trace : List ε}
    (h : trace ≠ position) (event : ε) :
    giving recorded position exchange trace event = recorded trace event :=
  dif_neg fun hsame => h hsame.1

theorem giving_at (recorded : Answers ε ρ χ) (position : List ε) (exchange : Exchange ε ρ χ) :
    giving recorded position exchange position exchange.1 = exchange.2 :=
  dif_pos ⟨rfl, rfl⟩

/-- Whatever exchanges meet a condition, an environment has made them that always meets it. Where
there is no exchange it answers as `others`. -/
theorem exists_answered_by {others : Answers ε ρ χ}
    (hothers : ∀ trace event, condition trace event (others trace event))
    (h : MeetsAll condition exchanges) :
    ∃ answers, AnsweredBy answers exchanges ∧
      ∀ trace event, condition trace event (answers trace event) := by
  induction exchanges using List.reverseRecOn with
  | nil => exact ⟨others, meets_nil, hothers⟩
  | append_singleton exchanges exchange ih =>
      obtain ⟨hearlier, hlast⟩ := meets_snoc.mp h
      obtain ⟨recorded, hrecorded, hmeets⟩ := ih hearlier
      refine ⟨giving recorded (exchanges.map Sigma.fst) exchange, meets_snoc.mpr ⟨?_, ?_⟩, ?_⟩
      · -- An earlier exchange stands after a shorter trace.
        intro before other after hsplit
        rw [giving_elsewhere]
        · exact hrecorded before other after hsplit
        · intro hsame
          have hlength := congrArg List.length hsame
          rw [hsplit, List.length_map, List.length_map, List.length_append,
            List.length_cons] at hlength
          omega
      · exact (giving_at recorded _ exchange).symm
      · intro trace event
        by_cases hhere : trace = exchanges.map Sigma.fst ∧ exchange.1 = event
        · obtain ⟨rfl, rfl⟩ := hhere
          rw [giving_at]
          exact hlast
        · rw [giving, dif_neg hhere]
          exact hmeets trace event

end Meets

namespace Process

/-- What is left of a process after some exchanges. -/
inductive Continues (origin : Process ε ρ χ α) :
    List (Exchange ε ρ χ) → Process ε ρ χ α → Prop where
  | start : Continues origin [] origin
  | answer {exchanges : List (Exchange ε ρ χ)} {event : ε}
      {next : Except χ (ρ event) → Process ε ρ χ α}
      (h : Continues origin exchanges (.wait event next)) (answer : Except χ (ρ event)) :
      Continues origin (exchanges ++ [⟨event, answer⟩]) (next answer)

variable {origin current : Process ε ρ χ α} {exchanges : List (Exchange ε ρ χ)}

/-- A process that has ended makes no exchange. -/
theorem Continues.of_done {outcome : Except χ α}
    (h : (Process.done outcome : Process ε ρ χ α).Continues exchanges current) :
    exchanges = [] ∧ current = .done outcome := by
  induction h with
  | start => exact ⟨rfl, rfl⟩
  | answer _ _ ih => cases ih.2

/-- In an environment that gives the answers, what is left ends as the process alone. -/
theorem Continues.run_answered {answers : Answers ε ρ χ} (h : origin.Continues exchanges current)
    (hanswers : AnsweredBy answers exchanges) :
    origin.run answers [] = current.run answers (exchanges.map Sigma.fst) := by
  induction h with
  | start => rfl
  | @answer exchanges event next _ answer ih =>
      obtain ⟨hearlier, hlast⟩ := meets_snoc.mp hanswers
      obtain rfl : answer = answers (exchanges.map Sigma.fst) event := hlast
      rw [ih hearlier, List.map_append]
      rfl

/-- An environment can take every process to its end. -/
theorem Continues.exists_end {answers : Answers ε ρ χ} (h : origin.Continues exchanges current)
    (hanswers : AnsweredBy answers exchanges) :
    ∃ exchanges last outcome, origin.Continues exchanges last ∧ AnsweredBy answers exchanges ∧
      last.outcome = some outcome := by
  induction current generalizing exchanges with
  | done outcome => exact ⟨exchanges, .done outcome, outcome, h, hanswers, rfl⟩
  | wait event next ih =>
      exact ih _ (h.answer (answers (exchanges.map Sigma.fst) event))
        (meets_snoc.mpr ⟨hanswers, rfl⟩)

end Process

/-! ## Threads -/

/-- A process that has been started, with what has happened to it since. -/
structure Thread (ε : Type) (ρ : ε → Type) (χ α : Type) where
  origin : Process ε ρ χ α
  exchanges : List (Exchange ε ρ χ)
  current : Process ε ρ χ α
  continues : origin.Continues exchanges current

namespace Thread

variable {thread next : Thread ε ρ χ α}

/-- A thread before its first event. -/
def start (process : Process ε ρ χ α) : Thread ε ρ χ α := ⟨process, [], process, .start⟩

/-- The events of a thread so far. -/
def events (thread : Thread ε ρ χ α) : List ε := thread.exchanges.map Sigma.fst

/-- How the thread has ended, if it has. -/
def outcome (thread : Thread ε ρ χ α) : Option (Except χ α) := thread.current.outcome

/-- The next exchange of a thread that has not ended. -/
def resume (answer : (event : ε) → Except χ (ρ event)) (thread : Thread ε ρ χ α) :
    Option (Exchange ε ρ χ × Thread ε ρ χ α) :=
  match thread with
  | ⟨_, _, .done _, _⟩ => none
  | ⟨origin, exchanges, .wait event next, continues⟩ =>
      some (⟨event, answer event⟩,
        { origin := origin
          exchanges := exchanges ++ [⟨event, answer event⟩]
          current := next (answer event)
          continues := continues.answer (answer event) })

/-- What an exchange says about the threads around it. -/
theorem resume_eq_some {answer : (event : ε) → Except χ (ρ event)} {exchange : Exchange ε ρ χ}
    (h : thread.resume answer = some (exchange, next)) :
    next.origin = thread.origin ∧ next.exchanges = thread.exchanges ++ [exchange] ∧
      exchange.2 = answer exchange.1 := by
  obtain ⟨origin, exchanges, current, continues⟩ := thread
  cases current with
  | done outcome => cases h
  | wait event step =>
      obtain ⟨rfl, rfl⟩ := Prod.mk.inj (Option.some.inj h)
      exact ⟨rfl, rfl, rfl⟩

/-- A thread can go on unless it has ended. -/
theorem resume_eq_none {answer : (event : ε) → Except χ (ρ event)} :
    thread.resume answer = none ↔ thread.outcome.isSome := by
  obtain ⟨origin, exchanges, current, continues⟩ := thread
  cases current with
  | done outcome => exact ⟨fun _ => rfl, fun _ => rfl⟩
  | wait event step => constructor <;> intro h <;> cases h

/-- The environment has given the answers of the thread. -/
def AnsweredBy (thread : Thread ε ρ χ α) (answers : Answers ε ρ χ) : Prop :=
  Interaction.AnsweredBy answers thread.exchanges

/-- The events of a thread so far, and the one that it waits for an answer to. -/
def asked (thread : Thread ε ρ χ α) : List ε := thread.events ++ thread.current.awaited.toList

/-- A thread that has ended waits for nothing. -/
theorem asked_of_outcome {outcome : Except χ α} (h : thread.outcome = some outcome) :
    thread.asked = thread.events := by
  obtain ⟨origin, exchanges, current, continues⟩ := thread
  cases current with
  | done last => exact List.append_nil _
  | wait event next => cases h

/-- In an environment that has given its answers, the process of a thread alone begins with the
events of the thread, and these are all its events when the thread has ended. -/
theorem AnsweredBy.run {answers : Answers ε ρ χ} (h : thread.AnsweredBy answers) :
    ∃ more, (thread.origin.run answers []).2 = thread.events ++ more ∧
      (more = [] ↔ thread.outcome.isSome) ∧
      ∀ outcome, thread.outcome = some outcome → (thread.origin.run answers []).1 = outcome := by
  have hrun : thread.origin.run answers [] = thread.current.run answers thread.events :=
    thread.continues.run_answered h
  obtain ⟨more, hmore, -, hended⟩ := thread.current.run_extends answers thread.events
  rw [hrun]
  refine ⟨more, hmore, hended, fun outcome houtcome => ?_⟩
  rw [Process.run_of_outcome answers houtcome]

/-- An environment without a memory has given the answers if it has given each of them. -/
theorem answered_by_fixed {fixed : (event : ε) → Except χ (ρ event)}
    (h : ∀ exchange ∈ thread.exchanges, exchange.2 = fixed exchange.1) :
    thread.AnsweredBy fun _ => fixed :=
  @meets_of_forall _ _ _ thread.exchanges (fun event answer => answer = fixed event) h

/-- The awaited event is the next one of the process alone. -/
theorem AnsweredBy.asked_run {answers : Answers ε ρ χ} (h : thread.AnsweredBy answers) :
    thread.asked <+: (thread.origin.run answers []).2 := by
  have hrun : thread.origin.run answers [] = thread.current.run answers thread.events :=
    thread.continues.run_answered h
  obtain ⟨more, hmore, hawaited, -⟩ := thread.current.run_extends answers thread.events
  rw [hrun, hmore]
  exact (List.prefix_append_right_inj _).mpr hawaited

/-- A thread that has ended is the process alone. -/
theorem AnsweredBy.run_ended {answers : Answers ε ρ χ} {outcome : Except χ α}
    (h : thread.AnsweredBy answers) (houtcome : thread.outcome = some outcome) :
    thread.origin.run answers [] = (outcome, thread.events) := by
  have hrun : thread.origin.run answers [] = thread.current.run answers thread.events :=
    thread.continues.run_answered h
  rw [hrun, Process.run_of_outcome answers houtcome]

/-- Some environment has given the answers of a thread. -/
theorem exists_answered_by (thread : Thread ε ρ χ α) (others : Answers ε ρ χ) :
    ∃ answers, thread.AnsweredBy answers := by
  obtain ⟨answers, hanswers, -⟩ :=
    @Interaction.exists_answered_by _ _ _ (fun _ _ _ => True) thread.exchanges others
      (fun _ _ => trivial) fun _ _ _ _ => trivial
  exact ⟨answers, hanswers⟩

/-- In every environment a thread of the process can be taken to its end. -/
theorem exists_ended (process : Process ε ρ χ α) (answers : Answers ε ρ χ) :
    ∃ thread : Thread ε ρ χ α, thread.origin = process ∧ thread.AnsweredBy answers ∧
      thread.outcome = some (process.run answers []).1 ∧
      thread.events = (process.run answers []).2 := by
  obtain ⟨exchanges, last, outcome, hcontinues, hanswers, houtcome⟩ :=
    (Process.Continues.start : process.Continues [] process).exists_end
      (meets_nil : Interaction.AnsweredBy answers [])
  have hended := @AnsweredBy.run_ended _ _ _ _ ⟨process, exchanges, last, hcontinues⟩ answers
    outcome hanswers houtcome
  have hended : process.run answers [] = (outcome, exchanges.map Sigma.fst) := hended
  refine ⟨⟨process, exchanges, last, hcontinues⟩, rfl, hanswers, ?_, ?_⟩
  · rw [hended]
    exact houtcome
  · rw [hended]
    rfl

end Thread

end Interaction
