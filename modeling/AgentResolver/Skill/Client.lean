import AgentResolver.Skill.Delivery
import AgentResolver.Skill.RequestOptions

/-!
# `requestSkill` over a client

The two halves of `requestSkill` of `src/skill-fetch.js` put together: the options that are handed
to Node's client, and the handlers of the events that the client delivers for them. A response
whose status is in the 2xx range is a whole body under the status line that came before it
(`answered_success`).
-/

namespace AgentResolver

open JavaScript Web
open Interaction

/-- Node's client: the events that it has delivered for a request, in any order. The trace is that
before the request. The events need not resolve the promise. -/
abbrev SkillClient := Trace → RequestOptions → List RequestEvent

/-- Every promise is resolved in the end. -/
def SkillClient.Settles (client : SkillClient) : Prop :=
  ∀ trace request, (runHandlers maxSkillBytes (client trace request)).promise.isSome

/-- The events of a connection that is closed in the end, where the peer drops only a request that
was already destroyed. -/
def IsClosedExchange (events : List RequestEvent) : Prop :=
  ∃ state, runEvents (deliver maxSkillBytes) .initial events = some state ∧
    state.connection.closed = true ∧
    AllSteps (deliver maxSkillBytes) DropsOnlyDestroyed .initial events

/-- Over connections that are closed in the end every promise is resolved. -/
theorem settles_of_closed {client : SkillClient}
    (h : ∀ trace request, IsClosedExchange (client trace request)) : client.Settles := by
  intro trace request
  obtain ⟨state, hrun, hclosed, hsteps⟩ := h trace request
  have hsettles := run_events_invariant (fun _ _ _ => settles_step) settles_initial hsteps hrun
  exact run_events_handlers hrun ▸ hsettles.closed hclosed

/-- `requestSkill` with the default limit, which no caller changes, over a client that resolves
every promise. -/
def SkillClient.requestSkill {client : SkillClient} (h : client.Settles) (idna : Idna) : Fetcher :=
  fun trace urlString options => do
    let request ← requestOptions idna urlString options
    return (runHandlers maxSkillBytes (client trace request)).promise.get (h trace request)

variable {maxBytes : Nat} {events : List RequestEvent}

/-- The status is that of a response event. -/
theorem run_handlers_status {status : Int}
    (h : (runHandlers maxBytes events).statusCode = some status) :
    .response (some status) ∈ events := by
  induction events using List.reverseRecOn with
  | nil => cases h
  | append_singleton events event ih =>
      rw [run_handlers_snoc] at h
      rw [List.mem_append, List.mem_singleton]
      cases event with
      | response statusCode => exact Or.inr (congrArg RequestEvent.response h.symm)
      | timeout => exact Or.inl (ih h)
      | error message => exact Or.inl (ih h)
      | dropped => exact Or.inl (ih h)
      | close => exact Or.inl (ih h)
      | data chunk =>
          rw [handle] at h
          split at h
          · exact Or.inl (ih h)
          · exact Or.inl (ih h)
      | endOfBody =>
          rw [handle] at h
          split at h
          · exact Or.inl (ih h)
          · exact Or.inl (ih h)

/-- A body is resolved at the first end, under the status of the events before. -/
theorem resolved_at_end {response : Response}
    (h : (runHandlers maxBytes events).promise = some response) (hbody : response.body.isSome) :
    ∃ before after, events = before ++ .endOfBody :: after ∧ .endOfBody ∉ before ∧
      response.status = some ((runHandlers maxBytes before).statusCode.getD 0) := by
  induction events using List.reverseRecOn with
  | nil => cases h
  | append_singleton events event ih =>
      rw [run_handlers_snoc] at h
      cases hpromise : (runHandlers maxBytes events).promise with
      | some earlier =>
          obtain rfl := Option.some.inj ((promise_kept hpromise).symm.trans h)
          obtain ⟨before, after, rfl, hend, hstatus⟩ := ih hpromise
          exact ⟨before, after ++ [event], by simp, hend, hstatus⟩
      | none =>
          -- Only an end resolves the promise with a body.
          cases event with
          | endOfBody =>
              rw [handle] at h
              split at h
              · cases hpromise.symm.trans h
              · rename_i haborted
                obtain rfl := Option.some.inj ((resolve_pending hpromise).symm.trans h)
                refine ⟨events, [], rfl, fun hmem => ?_, rfl⟩
                rcases (tracks_run events).ended hmem with hsome | htrue
                · rw [hpromise] at hsome
                  cases hsome
                · exact haborted htrue
          | error message =>
              obtain rfl := Option.some.inj ((resolve_pending hpromise).symm.trans h)
              cases hbody
          | data chunk =>
              rw [handle] at h
              split at h
              · cases hpromise.symm.trans h
              · cases hpromise.symm.trans h
          | timeout => cases hpromise.symm.trans h
          | response statusCode => cases hpromise.symm.trans h
          | dropped => cases hpromise.symm.trans h
          | close => cases hpromise.symm.trans h

/-- The events of a whole body within a limit, under a status. -/
structure IsWholeBody (maxBytes : Nat) (events : List RequestEvent) (status : Int)
    (bytes : List UInt8) : Prop where
  complete : ∃ before after, events = before ++ .endOfBody :: after ∧ .endOfBody ∉ before ∧
    .response (some status) ∈ before ∧ deliveredBytes before = bytes
  length_le : bytes.length ≤ maxBytes

/-- The events before the first end are determined. -/
theorem before_end_unique {before after before' after' : List RequestEvent}
    (h : before ++ .endOfBody :: after = before' ++ .endOfBody :: after')
    (hend : .endOfBody ∉ before) (hend' : .endOfBody ∉ before') : before = before' := by
  obtain ⟨between, hlong⟩ := prefix_before_end h hend
  obtain ⟨between', hshort⟩ := prefix_before_end h.symm hend'
  rw [hshort, List.append_assoc] at hlong
  have hnil : between' = [] :=
    (List.append_eq_nil_iff.mp (List.append_cancel_left (hlong.symm.trans
      (List.append_nil _).symm))).1
  rw [hshort, hnil, List.append_nil]

/-- A response with a body and a status in the 2xx range is the decoding of a whole body. -/
theorem answered_success {response : Response} {body : JSString}
    (h : (runHandlers maxBytes events).promise = some response)
    (hbody : response.body = some body)
    (hstatus : 200 ≤ response.status.getD 0 ∧ response.status.getD 0 ≤ 299) :
    ∃ bytes, IsWholeBody maxBytes events (response.status.getD 0) bytes ∧
      body = ofScalars (decode bytes) := by
  obtain ⟨before, after, hsplit, hend, hat⟩ := resolved_at_end h (hbody ▸ rfl)
  rcases (tracks_run events).resolved response h with
    ⟨message, -, rfl⟩ | ⟨head, tail, status, hhead, hfirst, hlength, rfl⟩
  · cases hbody
  · obtain rfl : before = head := before_end_unique (hsplit.symm.trans hhead) hend hfirst
    obtain rfl := Option.some.inj hbody
    have hsame : status = (runHandlers maxBytes before).statusCode.getD 0 := Option.some.inj hat
    refine ⟨deliveredBytes before, ⟨⟨before, after, hsplit, hend, ?_, rfl⟩, hlength⟩, rfl⟩
    rw [Option.getD_some] at hstatus ⊢
    cases hcode : (runHandlers maxBytes before).statusCode with
    | none =>
        rw [hcode] at hsame
        obtain rfl : status = 0 := hsame
        omega
    | some code =>
        rw [hcode] at hsame
        obtain rfl : status = code := hsame
        exact run_handlers_status hcode

end AgentResolver
