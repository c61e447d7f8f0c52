import AgentResolver.Skill.Planning
import AgentResolver.Skill.Requests
import AgentResolver.Web.Reparse
import Mathlib.Data.List.ReduceOption

/-!
# Discovery stops at the first success

What `discoverSkillMd` does over any fetcher, as a function of the answers that the candidates get
when they are asked one after the other (`askAll`). `fetch_loop_run` is the run of the loop: it
records one attempt for each candidate up to the first success. The loop never throws, because the
URLs of a plan are accepted by `new URL` again (`planned_candidate_parses`).
-/

namespace AgentResolver

open JavaScript Web
open Interaction Sequence

/-! ## Answers -/

/-- How asking for a candidate ends. -/
inductive FetchAnswer where
  | noAddress
  | thrown (error : JSError)
  | response (response : Response)

namespace FetchAnswer

def status : FetchAnswer → Int
  | .response received => received.status.getD 0
  | _ => 0

/-- The message of an answer, if it has a nonempty one. -/
def message : FetchAnswer → Option JSString
  | .noAddress =>
      some (text "resolved address or injected fetcher is required before fetching SKILL.md")
  | .thrown error => (some error.message).filter fun message => !message.isEmpty
  | .response received => received.error.filter fun message => !message.isEmpty

/-- The body of a response that is a success: one with a string body and a status in 200..299. -/
def body : FetchAnswer → Option JSString
  | .response received =>
      if 200 ≤ received.status.getD 0 ∧ received.status.getD 0 ≤ 299 then received.body else none
  | _ => none

def isSuccess (answer : FetchAnswer) : Bool := answer.body.isSome

end FetchAnswer

/-- The candidate's URL has the name as its host. -/
def isOnName (idna : Idna) (name : JSString) (candidate : Candidate) : Bool :=
  (newUrl idna candidate.url).any fun url =>
    normalizeHostname url.hostname = normalizeHostname name

/-- Asking for a candidate, which makes one request unless a required address is missing. -/
def ask (idna : Idna) (options : DiscoveryOptions) (trace : Trace) (candidate : Candidate) :
    FetchAnswer × Trace :=
  let requires := isOnName idna options.name candidate
  if isBlocked options requires then (.noAddress, trace)
  else
    match options.fetchPath.request candidate.url (candidateOptions options requires) trace with
    | (.ok response, next) => (.response response, next)
    | (.error error, next) => (.thrown error, next)

/-- The candidates with the answers that they get one after the other. -/
def askAll (idna : Idna) (options : DiscoveryOptions) :
    Trace → List Candidate → List (Candidate × FetchAnswer)
  | _, [] => []
  | trace, candidate :: rest =>
      let (answer, next) := ask idna options trace candidate
      (candidate, answer) :: askAll idna options next rest

/-- The request that an answer is the answer to. -/
def requestFor (idna : Idna) (options : DiscoveryOptions) (candidate : Candidate) :
    FetchAnswer → Option Event
  | .noAddress => none
  | _ =>
      some (options.fetchPath.event candidate.url
        (candidateOptions options (isOnName idna options.name candidate)))

/-- The attempt that records an answer. -/
def attemptFor (platform : Platform) (candidate : Candidate) (answer : FetchAnswer) :
    SkillAttempt where
  url := candidate.url
  path := candidate.path
  status := answer.status
  found := answer.isSuccess
  error := answer.message
  hash := answer.body.map (sha256 platform)

/-- The candidates that are tried: those up to the first success, or all of them. -/
def tried (answers : List (Candidate × FetchAnswer)) : List (Candidate × FetchAnswer) :=
  visited (fun asked => asked.2.isSuccess) answers

/-- The first success. -/
def firstSuccess (answers : List (Candidate × FetchAnswer)) : Option (Candidate × FetchAnswer) :=
  answers.find? fun asked => asked.2.isSuccess

/-- A discovery that tries the candidates of the plan in order, given the answers of all of them. -/
structure IsDiscovery (platform : Platform) (plan : SkillCandidatePlan)
    (answers : List (Candidate × FetchAnswer)) (result : SkillResult) : Prop where
  candidates : answers.map Prod.fst = plan.candidates
  attempts : result.attempts = (tried answers).map fun asked => attemptFor platform asked.1 asked.2
  found : result.found = true ↔ ∃ asked ∈ answers, asked.2.isSuccess
  success : ∀ candidate answer body, firstSuccess answers = some (candidate, answer) →
    answer.body = some body →
    result.url = some candidate.url ∧ result.canonicalPath = some candidate.path ∧
      result.hash = some (sha256 platform body) ∧
      result.metadata = some (parseSkillMd body).metadata ∧
      result.warnings = plan.warnings ++ (parseSkillMd body).warnings
  failure : (∀ asked ∈ answers, asked.2.isSuccess = false) →
    result.url = none ∧ result.hash = none ∧ result.metadata = none ∧
      result.warnings = plan.warnings

/-! ## One candidate -/

variable {platform : Platform} {options : DiscoveryOptions}

theorem uses_name_on_name {idna : Idna} {candidate : Candidate} {name : JSString}
    (h : (newUrl idna candidate.url).isSome) :
    candidateUsesResolvedName idna candidate.url name = .ok (isOnName idna name candidate) := by
  obtain ⟨url, hurl⟩ := Option.isSome_iff_exists.mp h
  rw [candidateUsesResolvedName, isOnName, hurl]
  rfl

theorem filter_nonempty (message : Option JSString) :
    (message.filter fun message => !message.isEmpty) =
      if isFalsy message then none else message := by
  cases message with
  | none => rfl
  | some message => cases message <;> rfl

/-- What a response is recorded as. -/
theorem attempt_of_response_eq (candidate : Candidate) (response : Response) :
    attemptOfResponse platform candidate response =
      (attemptFor platform candidate (.response response),
        FetchAnswer.body (.response response)) := by
  obtain ⟨status, body, error⟩ := response
  cases body with
  | none =>
      have hbody : FetchAnswer.body (.response ⟨status, none, error⟩) = none := ite_self none
      simp only [attemptOfResponse, attemptFor, FetchAnswer.isSuccess, FetchAnswer.message,
        FetchAnswer.status, hbody, filter_nonempty]
      rfl
  | some body =>
      by_cases hstatus : 200 ≤ status.getD 0 ∧ status.getD 0 < 300
      · have hrange : 200 ≤ status.getD 0 ∧ status.getD 0 ≤ 299 := by omega
        have hbody : FetchAnswer.body (.response ⟨status, some body, error⟩) = some body :=
          if_pos hrange
        simp only [attemptOfResponse, attemptFor, FetchAnswer.isSuccess, FetchAnswer.message,
          FetchAnswer.status, hbody, filter_nonempty, if_pos hstatus]
        rfl
      · have hrange : ¬ (200 ≤ status.getD 0 ∧ status.getD 0 ≤ 299) := by omega
        have hbody : FetchAnswer.body (.response ⟨status, some body, error⟩) = none :=
          if_neg hrange
        simp only [attemptOfResponse, attemptFor, FetchAnswer.isSuccess, FetchAnswer.message,
          FetchAnswer.status, hbody, filter_nonempty, if_neg hstatus]
        rfl

/-- What is thrown is recorded as a response without a body. -/
theorem attempt_of_thrown_eq (candidate : Candidate) (error : JSError) :
    attemptOfResponse platform candidate ⟨some 0, none, some error.message⟩ =
      (attemptFor platform candidate (.thrown error), FetchAnswer.body (.thrown error)) := by
  rw [attempt_of_response_eq]
  rfl

/-- The attempt that is made is that of the answer, and its body is that of a success. -/
theorem fetch_candidate_ask (candidate : Candidate) (trace : Trace) :
    fetchCandidate platform options.fetchPath candidate
        (candidateOptions options (isOnName platform.idna options.name candidate)) trace =
      (.ok (attemptFor platform candidate (ask platform.idna options trace candidate).1,
        (ask platform.idna options trace candidate).1.body),
        (ask platform.idna options trace candidate).2) := by
  have hguard : ((candidateOptions options
      (isOnName platform.idna options.name candidate)).requiresResolvedAddress &&
      isFalsy (candidateOptions options (isOnName platform.idna options.name candidate)).address &&
      options.fetchPath.fetcher.isNone) =
        isBlocked options (isOnName platform.idna options.name candidate) := rfl
  rw [fetchCandidate, hguard, ask]
  by_cases hblocked : isBlocked options (isOnName platform.idna options.name candidate)
  · simp only [hblocked, if_true]
    rfl
  · simp only [hblocked, Bool.false_eq_true, if_false]
    rw [Run.bind_ok (Run.attempt_apply _ _)]
    cases options.fetchPath.request candidate.url (candidateOptions options
        (isOnName platform.idna options.name candidate)) trace with
    | mk outcome next =>
        cases outcome with
        | ok response =>
            exact congrArg (fun result => (Except.ok result, next)) (attempt_of_response_eq _ _)
        | error error =>
            exact congrArg (fun result => (Except.ok result, next)) (attempt_of_thrown_eq _ _)

/-- The trace after asking: the request that was made is added. -/
theorem ask_trace (idna : Idna) (trace : Trace) (candidate : Candidate) :
    (ask idna options trace candidate).2 =
      trace ++ (requestFor idna options candidate (ask idna options trace candidate).1).toList := by
  unfold ask
  by_cases hblocked : isBlocked options (isOnName idna options.name candidate)
  · simp only [hblocked, if_true]
    exact (List.append_nil trace).symm
  · have hrequest := request_apply options.fetchPath candidate.url
      (candidateOptions options (isOnName idna options.name candidate)) trace
    simp only [hblocked, Bool.false_eq_true, if_false]
    cases hrun : options.fetchPath.request candidate.url
        (candidateOptions options (isOnName idna options.name candidate)) trace with
    | mk outcome next =>
        rw [hrun] at hrequest
        cases outcome with
        | ok response => exact hrequest
        | error error => exact hrequest

/-! ## The loop -/

theorem ask_all_candidates (idna : Idna) (candidates : List Candidate) (trace : Trace) :
    (askAll idna options trace candidates).map Prod.fst = candidates := by
  induction candidates generalizing trace with
  | nil => rfl
  | cons candidate rest ih => exact congrArg (candidate :: ·) (ih _)

theorem ask_all_cons {idna : Idna} {trace next : Trace} {candidate : Candidate}
    {answer : FetchAnswer} (h : ask idna options trace candidate = (answer, next))
    (rest : List Candidate) :
    askAll idna options trace (candidate :: rest) =
      (candidate, answer) :: askAll idna options next rest := by
  rw [askAll, h]

section

variable {candidate : Candidate} {answer : FetchAnswer} {more : List (Candidate × FetchAnswer)}

theorem tried_success (h : answer.isSuccess) :
    tried ((candidate, answer) :: more) = [(candidate, answer)] ∧
      firstSuccess ((candidate, answer) :: more) = some (candidate, answer) :=
  ⟨visited_cons_pos h, List.find?_cons_of_pos h⟩

theorem tried_miss (h : answer.isSuccess = false) :
    tried ((candidate, answer) :: more) = (candidate, answer) :: tried more ∧
      firstSuccess ((candidate, answer) :: more) = firstSuccess more :=
  ⟨visited_cons_neg h, List.find?_cons_of_neg (by simp [h])⟩

end

/-- The requests of the candidates that are tried. -/
def requestsOf (idna : Idna) (options : DiscoveryOptions)
    (answers : List (Candidate × FetchAnswer)) : Trace :=
  (tried answers).flatMap fun asked => (requestFor idna options asked.1 asked.2).toList

/-- What the loop returns beside the attempts, for the first success. -/
def outcomeOf (platform : Platform) (answers : List (Candidate × FetchAnswer)) :
    Option (Candidate × SkillAttempt × JSString) :=
  (firstSuccess answers).bind fun asked =>
    asked.2.body.map fun body => (asked.1, attemptFor platform asked.1 asked.2, body)

/-- The loop records an attempt for each candidate that is tried, and never throws. -/
theorem fetch_loop_run {candidates : List Candidate}
    (hurls : ∀ candidate ∈ candidates, (newUrl platform.idna candidate.url).isSome)
    (attempts : List SkillAttempt) (trace : Trace) :
    fetchLoop platform options candidates attempts trace =
      (.ok (attempts ++ (tried (askAll platform.idna options trace candidates)).map
          fun asked => attemptFor platform asked.1 asked.2,
        outcomeOf platform (askAll platform.idna options trace candidates)),
        trace ++ requestsOf platform.idna options
          (askAll platform.idna options trace candidates)) := by
  induction candidates generalizing attempts trace with
  | nil =>
      show (Except.ok (attempts, none), trace) = (Except.ok (attempts ++ [], none), trace ++ [])
      rw [List.append_nil, List.append_nil]
  | cons candidate rest ih =>
      have huses := @uses_name_on_name platform.idna candidate options.name
        (hurls candidate List.mem_cons_self)
      have hrest := ih fun other hother => hurls other (List.mem_cons_of_mem _ hother)
      have hfetch := @fetch_candidate_ask platform options candidate trace
      have htrace := @ask_trace options platform.idna trace candidate
      cases hask : ask platform.idna options trace candidate with
      | mk answer next =>
          rw [hask] at hfetch htrace
          dsimp only at hfetch htrace
          rw [fetchLoop, huses, Run.bind_ok (Run.lift_apply _ _), Run.bind_ok hfetch,
            ask_all_cons hask]
          cases hbody : answer.body with
          | some body =>
              -- A success ends the loop.
              have hsuccess : answer.isSuccess = true := by rw [FetchAnswer.isSuccess, hbody]; rfl
              obtain ⟨htried, hfirst⟩ := @tried_success candidate answer
                (askAll platform.idna options next rest) hsuccess
              rw [requestsOf, outcomeOf, htried, hfirst, Option.bind_some, hbody,
                List.flatMap_cons, List.flatMap_nil, List.append_nil, ← htrace]
              rfl
          | none =>
              -- Any other answer is recorded, and the loop goes on.
              have hmiss : answer.isSuccess = false := by rw [FetchAnswer.isSuccess, hbody]; rfl
              obtain ⟨htried, hfirst⟩ := @tried_miss candidate answer
                (askAll platform.idna options next rest) hmiss
              dsimp only
              rw [hrest, requestsOf, requestsOf, outcomeOf, outcomeOf, htried, hfirst,
                List.map_cons, List.flatMap_cons, ← List.append_assoc trace, ← htrace,
                ← List.append_cons]

/-! ## The URLs of a plan -/

/-- The URL of a candidate is the text of a parsed URL, whatever the default scheme is. -/
theorem planned_candidate_parsed {idna : Idna} (hidna : idna.IsStable)
    {name scheme : JSString} {metadata : Properties JSString} {plan : SkillCandidatePlan}
    (hplan : buildSkillCandidatePlan idna name metadata scheme = .ok plan) {candidate : Candidate}
    (hmem : candidate ∈ plan.candidates) :
    ∃ url : Url, url.IsParsed idna ∧ candidate.url = url.href := by
  rw [build_plan_eq] at hplan
  cases hfound : (declaredSkill metadata :: defaultSkillPaths.map some).mapM (pathCandidate idna
      (expectedOrigin idna scheme name (declaredEndpoint metadata))) with
  | error error =>
      rw [hfound] at hplan
      cases hplan
  | ok found =>
      rw [hfound] at hplan
      obtain rfl := Except.ok.inj hplan
      have hlisted : candidate ∈ found.reduceOption := mem_of_mem_distinct_by hmem
      obtain ⟨rawPath, -, hcandidate⟩ := exists_left_of_mem (map_m_ok.mp hfound)
        (List.reduceOption_mem_iff.mp hlisted)
      obtain ⟨hdeclared, -⟩ := path_candidate_ok.mp hcandidate
      rw [declaredCandidate, Option.or_eq_some_iff] at hdeclared
      rcases hdeclared with habsolute | ⟨-, hrelative⟩
      · obtain ⟨url, hurl, rfl⟩ := Option.map_eq_some_iff.mp habsolute
        obtain ⟨hurl, -⟩ := Option.filter_eq_some_iff.mp hurl
        obtain ⟨skill, -, hurl⟩ := Option.bind_eq_some_iff.mp hurl
        exact ⟨url, new_url_parsed hidna hurl, rfl⟩
      · obtain ⟨reference, -, hresolved⟩ := Option.bind_eq_some_iff.mp hrelative
        obtain ⟨url, hurl, rfl⟩ := Option.map_eq_some_iff.mp hresolved
        exact ⟨url, new_url_with_base_parsed hidna hurl, rfl⟩

/-! ## Discovery -/

/-- For every plan, address list and fetcher, discovery returns what trying the candidates in order
up to the first success gives, and makes no other requests. -/
theorem discovery_first_success (platform : Platform) (options : DiscoveryOptions) (trace : Trace)
    (hidna : platform.idna.IsStable) {plan : SkillCandidatePlan}
    (hplan : buildSkillCandidatePlan platform.idna options.name options.metadata
      (options.defaultScheme.getD (text "https")) = .ok plan) :
    ∃ result, discoverSkillMd platform options trace =
        (.ok result, trace ++ requestsOf platform.idna options
          (askAll platform.idna options trace plan.candidates)) ∧
      IsDiscovery platform plan (askAll platform.idna options trace plan.candidates) result := by
  have hloop := @fetch_loop_run platform options plan.candidates (fun candidate hmem => by
    obtain ⟨url, hparsed, hurl⟩ := planned_candidate_parsed hidna hplan hmem
    exact hurl ▸ href_parses hparsed) [] trace
  have hanswers := @ask_all_candidates options platform.idna plan.candidates trace
  rw [discoverSkillMd, hplan, Run.bind_ok (Run.lift_apply _ _), Run.bind_ok hloop]
  cases hfirst : firstSuccess (askAll platform.idna options trace plan.candidates) with
  | none =>
      have hmisses : ∀ asked ∈ askAll platform.idna options trace plan.candidates,
          asked.2.isSuccess = false := by
        simpa using List.find?_eq_none.mp hfirst
      rw [outcomeOf, hfirst]
      refine ⟨_, rfl, hanswers, rfl, ?_, ?_, fun _ => ⟨rfl, rfl, rfl, rfl⟩⟩
      · constructor
        · intro hfound
          cases hfound
        · rintro ⟨asked, hasked, hsuccess⟩
          rw [hmisses asked hasked] at hsuccess
          cases hsuccess
      · intro candidate answer body hsome
        rw [hfirst] at hsome
        cases hsome
  | some asked =>
      obtain ⟨candidate, answer⟩ := asked
      have hsuccess : answer.isSuccess = true := by simpa using List.find?_some hfirst
      have hmem := List.mem_of_find?_eq_some hfirst
      obtain ⟨body, hbody⟩ := Option.isSome_iff_exists.mp hsuccess
      rw [outcomeOf, hfirst, Option.bind_some, hbody]
      refine ⟨_, rfl, hanswers, rfl, ⟨fun _ => ⟨_, hmem, hsuccess⟩, fun _ => rfl⟩, ?_, ?_⟩
      · intro other otherAnswer otherBody hother hotherBody
        obtain ⟨rfl, rfl⟩ := Prod.mk.inj (Option.some.inj (hfirst.symm.trans hother))
        obtain rfl := Option.some.inj (hbody.symm.trans hotherBody)
        refine ⟨rfl, rfl, ?_, rfl, rfl⟩
        show answer.body.map (sha256 platform) = _
        rw [hbody]
        rfl
      · intro hmisses
        rw [hmisses _ hmem] at hsuccess
        cases hsuccess

/-- Discovery for a name without metadata, with a fetcher that throws for the first request, has
nothing for the second and a skill for the third. -/
def sampleDiscovery : DiscoveryOptions where
  name := text "example"
  metadata := []
  addresses := []
  timeoutMs := none
  fetchPath :=
    { fetcher := some fun trace _ _ =>
        match trace.length with
        | 0 => .error ⟨text "socket hang up"⟩
        | 1 => .ok ⟨some 404, some (text "not found"), none⟩
        | _ => .ok ⟨some 200, some (text "# Agent"), none⟩
      requestSkill := fun _ _ _ => .error ⟨text "connect ECONNREFUSED"⟩ }
  defaultScheme := none

/-- The plan for the name. -/
def samplePlan : SkillCandidatePlan where
  candidates :=
    [⟨text "/SKILL.md", text "https://example/SKILL.md"⟩,
      ⟨text "/skill.md", text "https://example/skill.md"⟩,
      ⟨text "/.well-known/agent/SKILL.md", text "https://example/.well-known/agent/SKILL.md"⟩]
  warnings := []

/-- All three candidates are tried, and the third is found. -/
theorem discovery_first_success_example :
    ∃ result, discoverSkillMd .ascii sampleDiscovery [] =
        (.ok result, [] ++ requestsOf Platform.ascii.idna sampleDiscovery
          (askAll Platform.ascii.idna sampleDiscovery [] samplePlan.candidates)) ∧
      IsDiscovery .ascii samplePlan
        (askAll Platform.ascii.idna sampleDiscovery [] samplePlan.candidates) result ∧
      result.attempts.map SkillAttempt.status = [0, 404, 200] ∧
      result.url = some (text "https://example/.well-known/agent/SKILL.md") := by
  have hplan : buildSkillCandidatePlan Platform.ascii.idna sampleDiscovery.name
      sampleDiscovery.metadata (sampleDiscovery.defaultScheme.getD (text "https")) =
        .ok samplePlan := rfl
  have hidna : Platform.ascii.idna.IsStable :=
    ⟨fun _ _ h => absurd h (Option.some_ne_none _).symm,
      fun _ _ h => absurd h (Option.some_ne_none _).symm⟩
  obtain ⟨result, hrun, hresult⟩ := discovery_first_success .ascii sampleDiscovery [] hidna hplan
  refine ⟨result, hrun, hresult, ?_, ?_⟩
  · rw [hresult.attempts]
    rfl
  · exact (hresult.success _ _ _ rfl rfl).1

end AgentResolver
