import AgentResolver.Sequence.Search
import AgentResolver.Skill.Fetch

/-!
# The requests of a discovery run

Which calls `discoverSkillMd` makes: a subsequence of the candidates of the plan is requested, in
order, each with the options that its URL determines. `discover_skill_md_events` is the run lemma.
-/

namespace AgentResolver

open JavaScript Web
open Interaction

/-- The event of a request. -/
def FetchPath.event (path : FetchPath) (url : JSString) (options : FetchOptions) : Event :=
  match path.fetcher with
  | some _ => .fetch url options
  | none => .requestSkill url options

/-- The URL that an event requests. -/
def requestedUrl : Event → Option JSString
  | .fetch url _ => some url
  | .requestSkill url _ => some url
  | _ => none

variable (platform : Platform) (options : DiscoveryOptions)

/-- The candidate must be requested at a resolved address and there is none. -/
def isBlocked (requiresResolvedAddress : Bool) : Bool :=
  let fetchOptions := candidateOptions options requiresResolvedAddress
  fetchOptions.requiresResolvedAddress && isFalsy fetchOptions.address &&
    options.fetchPath.fetcher.isNone

/-- The event is the request that the loop makes for the candidate. -/
def IsRequestFor (candidate : Candidate) (event : Event) : Prop :=
  ∃ requiresResolvedAddress,
    candidateUsesResolvedName platform.idna candidate.url options.name =
        .ok requiresResolvedAddress ∧
      isBlocked options requiresResolvedAddress = false ∧
      event = options.fetchPath.event candidate.url
        (candidateOptions options requiresResolvedAddress)

@[simp] theorem requested_url_event (path : FetchPath) (url : JSString) (options : FetchOptions) :
    requestedUrl (path.event url options) = some url := by
  unfold FetchPath.event
  split <;> rfl

section

variable {platform options}

/-- A request asks for the URL of its candidate. -/
theorem IsRequestFor.url {candidate : Candidate} {event : Event}
    (h : IsRequestFor platform options candidate event) :
    requestedUrl event = some candidate.url := by
  obtain ⟨requires, _, _, rfl⟩ := h
  simp

/-- Every request of a run is one for a candidate that was asked. -/
theorem candidate_of_request {asked : List Candidate} {added : Trace} {event : Event}
    (hall : List.Forall₂ (IsRequestFor platform options) asked added) (h : event ∈ added) :
    ∃ candidate ∈ asked, IsRequestFor platform options candidate event :=
  Sequence.exists_left_of_mem hall h

/-- The URLs requested are those of the candidates asked, in order. -/
theorem requested_urls {asked : List Candidate} {added : Trace}
    (hall : List.Forall₂ (IsRequestFor platform options) asked added) :
    added.filterMap requestedUrl = asked.map Candidate.url := by
  induction hall with
  | nil => rfl
  | cons hrequest _ ih => simp [hrequest.url, ih]

end

theorem request_apply (path : FetchPath) (url : JSString) (fetchOptions : FetchOptions)
    (trace : Trace) :
    (path.request url fetchOptions trace).2 = trace ++ [path.event url fetchOptions] := by
  unfold FetchPath.request FetchPath.event
  cases path.fetcher <;> rfl

/-- A candidate is either blocked, without a request, or requested once. It never throws. -/
theorem fetch_candidate_run (candidate : Candidate) (requires : Bool) (trace : Trace) :
    ∃ attempt body, fetchCandidate platform options.fetchPath candidate
        (candidateOptions options requires) trace =
      (.ok (attempt, body), trace ++
        if isBlocked options requires then []
        else [options.fetchPath.event candidate.url (candidateOptions options requires)]) := by
  have hguard : ((candidateOptions options requires).requiresResolvedAddress &&
      isFalsy (candidateOptions options requires).address &&
      options.fetchPath.fetcher.isNone) = isBlocked options requires := rfl
  rw [fetchCandidate, hguard]
  by_cases hblocked : isBlocked options requires
  · rw [if_pos hblocked, if_pos hblocked, List.append_nil]
    exact ⟨_, none, rfl⟩
  · rw [if_neg hblocked, if_neg hblocked, Run.bind_ok (Run.attempt_apply _ _), request_apply]
    cases (options.fetchPath.request candidate.url (candidateOptions options requires) trace).1 with
    | ok response => exact ⟨_, _, rfl⟩
    | error error => exact ⟨_, _, rfl⟩

/-- The requests of the loop: one for each candidate of a subsequence of its list. -/
theorem fetch_loop_events (candidates : List Candidate) (attempts : List SkillAttempt)
    (trace : Trace) :
    ∃ added asked, (fetchLoop platform options candidates attempts trace).2 = trace ++ added ∧
      asked.Sublist candidates ∧ List.Forall₂ (IsRequestFor platform options) asked added := by
  induction candidates generalizing attempts trace with
  | nil => exact ⟨[], [], by simp [fetchLoop], List.Sublist.refl [], .nil⟩
  | cons candidate rest ih =>
      rw [fetchLoop]
      cases huses : candidateUsesResolvedName platform.idna candidate.url options.name with
      | error error =>
          rw [Run.bind_error (Run.lift_apply _ _)]
          exact ⟨[], [], by simp, List.nil_sublist _, .nil⟩
      | ok requires =>
          obtain ⟨attempt, body, hfetch⟩ :=
            fetch_candidate_run platform options candidate requires trace
          rw [Run.bind_ok (Run.lift_apply _ _), Run.bind_ok hfetch]
          by_cases hblocked : isBlocked options requires
          · rw [if_pos hblocked, List.append_nil]
            cases body with
            | some body => exact ⟨[], [], by simp, List.nil_sublist _, .nil⟩
            | none =>
                obtain ⟨added, asked, hrun, hsub, hall⟩ := ih (attempts ++ [attempt]) trace
                exact ⟨added, asked, hrun, hsub.cons candidate, hall⟩
          · have hblocked : isBlocked options requires = false := by simpa using hblocked
            rw [if_neg (by simp [hblocked])]
            have hrequest : IsRequestFor platform options candidate
                (options.fetchPath.event candidate.url (candidateOptions options requires)) :=
              ⟨requires, huses, hblocked, rfl⟩
            cases body with
            | some body =>
                exact ⟨_, [candidate], rfl, by simp, .cons hrequest .nil⟩
            | none =>
                obtain ⟨added, asked, hrun, hsub, hall⟩ := ih (attempts ++ [attempt])
                  (trace ++ [options.fetchPath.event candidate.url
                    (candidateOptions options requires)])
                refine ⟨_ :: added, candidate :: asked, ?_, hsub.cons_cons candidate,
                  .cons hrequest hall⟩
                rw [← List.append_cons] at hrun
                exact hrun

/-- The first candidate of the loop is requested, unless it is blocked. -/
theorem fetch_loop_first {candidate : Candidate} {rest : List Candidate} {requires : Bool}
    (huses : candidateUsesResolvedName platform.idna candidate.url options.name = .ok requires)
    (hopen : isBlocked options requires = false) (attempts : List SkillAttempt) (trace : Trace) :
    ∃ more, (fetchLoop platform options (candidate :: rest) attempts trace).2 =
      trace ++ options.fetchPath.event candidate.url (candidateOptions options requires) ::
        more := by
  obtain ⟨attempt, body, hfetch⟩ :=
    fetch_candidate_run platform options candidate requires trace
  rw [if_neg (by simp [hopen])] at hfetch
  rw [fetchLoop, huses, Run.bind_ok (Run.lift_apply _ _), Run.bind_ok hfetch]
  cases body with
  | some body => exact ⟨[], rfl⟩
  | none =>
      obtain ⟨added, _, hrun, _⟩ := fetch_loop_events platform options rest
        (attempts ++ [attempt]) (trace ++ [options.fetchPath.event candidate.url
          (candidateOptions options requires)])
      rw [← List.append_cons] at hrun
      exact ⟨added, hrun⟩

/-- The events of a discovery run are those of its loop. -/
theorem discover_skill_md_loop {plan : SkillCandidatePlan} (trace : Trace)
    (hplan : buildSkillCandidatePlan platform.idna options.name options.metadata
      (options.defaultScheme.getD (text "https")) = .ok plan) :
    (discoverSkillMd platform options trace).2 =
      (fetchLoop platform options plan.candidates [] trace).2 := by
  rw [discoverSkillMd, hplan, Run.bind_ok (Run.lift_apply _ _), Run.bind_apply]
  cases fetchLoop platform options plan.candidates [] trace with
  | mk outcome next =>
      cases outcome with
      | error error => rfl
      | ok result =>
          obtain ⟨attempts, outcome⟩ := result
          cases outcome <;> rfl

/-- The requests of a discovery run. A run whose plan throws makes none. -/
theorem discover_skill_md_events (trace : Trace) :
    ∃ added asked, (discoverSkillMd platform options trace).2 = trace ++ added ∧
      List.Forall₂ (IsRequestFor platform options) asked added ∧
      (asked = [] ∨ ∃ plan, buildSkillCandidatePlan platform.idna options.name options.metadata
          (options.defaultScheme.getD (text "https")) = .ok plan ∧
        asked.Sublist plan.candidates) := by
  cases hplan : buildSkillCandidatePlan platform.idna options.name options.metadata
      (options.defaultScheme.getD (text "https")) with
  | error error =>
      rw [discoverSkillMd, hplan, Run.bind_error (Run.lift_apply _ _)]
      exact ⟨[], [], by simp, .nil, Or.inl rfl⟩
  | ok plan =>
      rw [discover_skill_md_loop platform options trace hplan]
      obtain ⟨added, asked, hrun, hsub, hall⟩ :=
        fetch_loop_events platform options plan.candidates [] trace
      exact ⟨added, asked, hrun, hall, Or.inr ⟨plan, rfl, hsub⟩⟩

end AgentResolver
