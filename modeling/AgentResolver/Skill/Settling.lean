import AgentResolver.Constants
import AgentResolver.Skill.Request

/-!
# When a SKILL.md request settles

The promise of `requestSkill` is resolved by the `error` and `end` handlers only. A timeout and an
oversized body reach it through `req.destroy`, whose error comes before `close`. A peer that closes
the connection between the response headers and the end of the body reaches neither handler, and
the promise stays pending unless the request was being destroyed already.
-/

namespace AgentResolver

open JavaScript Web
open Interaction

/-- A status together with a body or an error, not both. -/
def Response.IsDefinite (response : Response) : Prop :=
  response.status.isSome ∧ (response.body.isSome ↔ response.error = none)

/-- The peer does not close the connection early, except when the request was already
destroyed. -/
def DropsOnlyDestroyed (state : RequestState) (event : RequestEvent) : Prop :=
  event = .dropped → state.connection.destroyed.isSome

instance (state : RequestState) (event : RequestEvent) :
    Decidable (DropsOnlyDestroyed state event) :=
  inferInstanceAs (Decidable (event = .dropped → state.connection.destroyed.isSome))

/-- What a delivered event says about the states around it. -/
theorem deliver_eq_some {maxBytes : Nat} {state next : RequestState} {event : RequestEvent} :
    deliver maxBytes state event = some next ↔
      state.connection.allows event = true ∧
        next = ⟨(handle maxBytes state.handlers event).1,
          state.connection.after event (handle maxBytes state.handlers event).2⟩ := by
  unfold deliver
  by_cases h : state.connection.allows event
  · simp [h, eq_comm]
  · simp [h]

/-! ## The promise -/

theorem resolve_pending {handlers : Handlers} {response : Response}
    (h : handlers.promise = none) : (handlers.resolve response).promise = some response := by
  simp [Handlers.resolve, h]

theorem resolve_settled {handlers : Handlers} {earlier response : Response}
    (h : handlers.promise = some earlier) :
    (handlers.resolve response).promise = some earlier := by
  simp [Handlers.resolve, h]

/-- After a call of `resolve` the promise is resolved. -/
theorem resolve_is_some (handlers : Handlers) (response : Response) :
    (handlers.resolve response).promise.isSome := by
  cases h : handlers.promise with
  | none => simp [resolve_pending h]
  | some earlier => simp [resolve_settled h]

/-- A handler resolves the promise at most once. -/
theorem promise_kept {maxBytes : Nat} {handlers : Handlers} {event : RequestEvent}
    {response : Response} (h : handlers.promise = some response) :
    (handle maxBytes handlers event).1.promise = some response := by
  cases event with
  | timeout => exact h
  | error message => exact resolve_settled h
  | response statusCode => exact h
  | data chunk =>
      simp only [handle]
      split
      · exact h
      · exact h
  | endOfBody =>
      simp only [handle]
      split
      · exact h
      · exact resolve_settled h
  | dropped => exact h
  | close => exact h

/-- A handler that resolves the promise gives it a definite value. -/
theorem promise_definite {maxBytes : Nat} {handlers : Handlers} {event : RequestEvent}
    (hdefinite : ∀ response, handlers.promise = some response → response.IsDefinite) :
    ∀ response, (handle maxBytes handlers event).1.promise = some response →
      response.IsDefinite := by
  intro response h
  cases hp : handlers.promise with
  | some earlier =>
      rw [promise_kept hp] at h
      exact hdefinite response (hp.trans h)
  | none =>
      cases event with
      | error message =>
          have hresponse := Option.some.inj ((resolve_pending hp).symm.trans h)
          simp [← hresponse, Response.IsDefinite]
      | endOfBody =>
          simp only [handle] at h
          split at h
          · exact hdefinite response h
          · have hresponse := Option.some.inj ((resolve_pending hp).symm.trans h)
            simp [← hresponse, Response.IsDefinite]
      | data chunk =>
          simp only [handle] at h
          split at h
          · exact hdefinite response h
          · exact hdefinite response h
      | timeout => exact hdefinite response h
      | response statusCode => exact hdefinite response h
      | dropped => exact hdefinite response h
      | close => exact hdefinite response h

/-! ## Pending requests -/

/-- Why the promise of a request is resolved, or an error is still to come. -/
structure Settles (state : RequestState) : Prop where
  failed : state.connection.failed = true → state.handlers.promise.isSome
  aborted : state.handlers.aborted = true → state.connection.destroyed.isSome
  ended : state.connection.ended = true →
    state.handlers.promise.isSome ∨ state.handlers.aborted = true
  dropped : state.connection.dropped = true → state.connection.destroyed.isSome
  closed : state.connection.closed = true → state.handlers.promise.isSome

/-- A request that may close now has resolved its promise. -/
theorem Settles.of_close {state : RequestState} (h : Settles state)
    (hallowed : state.connection.allows .close = true) : state.handlers.promise.isSome := by
  simp only [Connection.allows, Bool.and_eq_true, Bool.or_eq_true, Bool.not_eq_true'] at hallowed
  obtain ⟨-, hflushed, hover⟩ := hallowed
  have hdestroyed (hd : state.connection.destroyed.isSome) :
      state.handlers.promise.isSome := by
    rcases hflushed with hnone | hfailed
    · rw [Option.isNone_iff_eq_none] at hnone
      simp [hnone] at hd
    · exact h.failed hfailed
  rcases hover with (hfailed | hended) | hdropped
  · exact h.failed hfailed
  · rcases h.ended hended with hpromise | haborted
    · exact hpromise
    · exact hdestroyed (h.aborted haborted)
  · exact hdestroyed (h.dropped hdropped)

/-- Before any event nothing has happened that the promise could miss. -/
theorem settles_initial : Settles .initial where
  failed := by simp [RequestState.initial, Connection.initial]
  aborted := by simp [RequestState.initial, Handlers.initial]
  ended := by simp [RequestState.initial, Connection.initial]
  dropped := by simp [RequestState.initial, Connection.initial]
  closed := by simp [RequestState.initial, Connection.initial]

/-! ## One event -/

/-- A destroyed request stays destroyed. -/
theorem after_destroyed {connection : Connection} {event : RequestEvent}
    {destroy : Option JSString} (h : connection.destroyed.isSome) :
    (connection.after event destroy).destroyed.isSome := by
  obtain ⟨message, hmessage⟩ := Option.isSome_iff_exists.mp h
  simp [Connection.after, hmessage]

/-- A handler that calls `req.destroy` leaves a destroyed request. -/
theorem after_destroy {connection : Connection} {event : RequestEvent}
    {destroy : Option JSString} (h : destroy.isSome) :
    (connection.after event destroy).destroyed.isSome := by
  obtain ⟨message, rfl⟩ := Option.isSome_iff_exists.mp h
  cases hd : connection.destroyed with
  | none => simp [Connection.after, hd]
  | some earlier => exact after_destroyed (by simp [hd])

theorem promise_is_some_kept {maxBytes : Nat} {handlers : Handlers} {event : RequestEvent}
    (h : handlers.promise.isSome) : (handle maxBytes handlers event).1.promise.isSome := by
  obtain ⟨response, hresponse⟩ := Option.isSome_iff_exists.mp h
  simp [promise_kept hresponse]

/-- A handler that sets `aborted` destroys the request. -/
theorem handle_aborted {maxBytes : Nat} {handlers : Handlers} {event : RequestEvent}
    (h : (handle maxBytes handlers event).1.aborted = true) :
    handlers.aborted = true ∨ (handle maxBytes handlers event).2.isSome := by
  cases event with
  | data chunk =>
      simp only [handle] at h ⊢
      split at h
      · rename_i hlarge
        right
        simp [hlarge]
      · exact Or.inl h
  | endOfBody =>
      simp only [handle] at h
      split at h
      · exact Or.inl h
      · exact Or.inl h
  | timeout => exact Or.inl h
  | error message => exact Or.inl h
  | response statusCode => exact Or.inl h
  | dropped => exact Or.inl h
  | close => exact Or.inl h

/-- No handler clears `aborted`. -/
theorem aborted_kept {maxBytes : Nat} {handlers : Handlers} {event : RequestEvent}
    (h : handlers.aborted = true) : (handle maxBytes handlers event).1.aborted = true := by
  cases event with
  | data chunk =>
      simp only [handle]
      split
      · rfl
      · exact h
  | endOfBody => simp [handle, h]
  | timeout => exact h
  | error message => exact h
  | response statusCode => exact h
  | dropped => exact h
  | close => exact h

/-- The end of the body resolves the promise of a request that was not aborted. -/
theorem end_settles (maxBytes : Nat) (handlers : Handlers) :
    (handle maxBytes handlers .endOfBody).1.promise.isSome ∨
      (handle maxBytes handlers .endOfBody).1.aborted = true := by
  by_cases h : handlers.aborted
  · exact Or.inr (aborted_kept h)
  · left
    simp only [handle, h, if_neg, Bool.false_eq_true, not_false_eq_true]
    exact resolve_is_some _ _

/-- One event keeps the invariant, unless the peer drops a request that was not destroyed. -/
theorem settles_step {maxBytes : Nat} {state next : RequestState} {event : RequestEvent}
    (h : Settles state) (hdrop : DropsOnlyDestroyed state event)
    (hstep : deliver maxBytes state event = some next) : Settles next := by
  obtain ⟨hallowed, rfl⟩ := deliver_eq_some.mp hstep
  have hpromise := @promise_is_some_kept maxBytes state.handlers event
  constructor
  · intro hfailed
    simp only [Connection.after, Bool.or_eq_true] at hfailed
    rcases hfailed with hfailed | herror
    · exact hpromise (h.failed hfailed)
    · cases event with
      | error message => exact resolve_is_some _ _
      | _ => simp at herror
  · intro haborted
    rcases handle_aborted haborted with haborted | hdestroy
    · exact after_destroyed (h.aborted haborted)
    · exact after_destroy hdestroy
  · intro hended
    simp only [Connection.after, Bool.or_eq_true] at hended
    rcases hended with hended | hend
    · rcases h.ended hended with hsome | haborted
      · exact Or.inl (hpromise hsome)
      · exact Or.inr (aborted_kept haborted)
    · cases event with
      | endOfBody => exact end_settles maxBytes state.handlers
      | _ => simp at hend
  · intro hdropped
    simp only [Connection.after, Bool.or_eq_true] at hdropped
    rcases hdropped with hdropped | hnow
    · exact after_destroyed (h.dropped hdropped)
    · cases event with
      | dropped => exact after_destroyed (hdrop rfl)
      | _ => simp at hnow
  · intro hclosed
    simp only [Connection.after, Bool.or_eq_true] at hclosed
    rcases hclosed with hclosed | hnow
    · exact hpromise (h.closed hclosed)
    · cases event with
      | close => exact hpromise (h.of_close hallowed)
      | _ => simp at hnow

/-! ## Whole runs -/

/-- In a run in which the peer closes early only a request that was already destroyed, no state is
closed and pending. In every run the promise takes one definite value and keeps it. -/
theorem closed_request_settled {maxBytes : Nat} {events : List RequestEvent}
    {state : RequestState} (hrun : runEvents (deliver maxBytes) .initial events = some state)
    (hsteps : AllSteps (deliver maxBytes) DropsOnlyDestroyed .initial events) :
    (state.connection.closed = true → state.handlers.promise.isSome) ∧
      ∀ response, state.handlers.promise = some response →
        response.IsDefinite ∧
          ∀ later final, runEvents (deliver maxBytes) state later = some final →
            final.handlers.promise = some response := by
  refine ⟨?_, ?_⟩
  · have hsettles := run_events_invariant (fun _ _ _ => settles_step) settles_initial hsteps hrun
    exact hsettles.closed
  · intro response hresponse
    refine ⟨?_, ?_⟩
    · have hdefinite : ∀ response, state.handlers.promise = some response →
          response.IsDefinite := by
        refine @run_events_preserves _ _ _ (fun state : RequestState =>
          ∀ response, state.handlers.promise = some response → response.IsDefinite)
          ?_ events .initial state ?_ hrun
        · intro before event after hbefore hstep
          obtain ⟨-, rfl⟩ := deliver_eq_some.mp hstep
          exact promise_definite hbefore
        · intro response h
          simp [RequestState.initial, Handlers.initial] at h
      exact hdefinite response hresponse
    · intro later final hlater
      refine @run_events_preserves _ _ _ (fun state : RequestState =>
        state.handlers.promise = some response) ?_ later state final hresponse hlater
      intro before event after hbefore hstep
      obtain ⟨-, rfl⟩ := deliver_eq_some.mp hstep
      exact promise_kept hbefore

/-- A response that times out after part of the body: it is dropped because it was destroyed. -/
def timedOutEvents : List RequestEvent :=
  [.response (some 200), .data [72], .timeout, .error (text "SKILL.md fetch timed out"), .dropped,
    .close]

theorem closed_request_settled_example :
    ∃ state, runEvents (deliver maxSkillBytes) .initial timedOutEvents = some state ∧
      state.connection.closed = true ∧ state.handlers.promise.isSome := by
  obtain ⟨state, hrun, hclosed⟩ : ∃ state,
      runEvents (deliver maxSkillBytes) .initial timedOutEvents = some state ∧
        state.connection.closed = true := ⟨_, rfl, rfl⟩
  have hsteps : AllSteps (deliver maxSkillBytes) DropsOnlyDestroyed .initial timedOutEvents := by
    decide
  exact ⟨state, hrun, hclosed, (closed_request_settled hrun hsteps).1 hclosed⟩

/-- The peer closes the connection after part of the body: the request is closed and its promise
is never resolved. -/
theorem dropped_request_pending :
    ∃ state, runEvents (deliver maxSkillBytes) .initial
        [.response (some 200), .data [72], .dropped, .close] = some state ∧
      state.connection.closed = true ∧ state.handlers.promise = none :=
  ⟨_, rfl, rfl, rfl⟩

end AgentResolver
