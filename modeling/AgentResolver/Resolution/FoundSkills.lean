import AgentResolver.Interaction.Among
import AgentResolver.Resolution.WireRequests
import AgentResolver.Skill.Client

/-!
# Where a skill that is found comes from

Over `requestSkill` and Node's client, a SKILL.md that `resolve` reports as found is a whole body
that was delivered for the last request of the run (`found_skill_delivered`): its hash and its
metadata are those of all the bytes that came before the end, under a status in the 2xx range.
-/

namespace AgentResolver

open JavaScript Web
open Interaction Sequence

variable {json : Json} {platform : Platform} {options : ResolverOptions} {trace last : Trace}

/-- A candidate is found when it is requested, and the response is a success. -/
theorem fetch_candidate_success {path : FetchPath} {candidate : Candidate}
    {fetchOptions : FetchOptions} {attempt : SkillAttempt} {body : JSString}
    (h : fetchCandidate platform path candidate fetchOptions trace =
      (.ok (attempt, some body), last)) :
    (fetchOptions.requiresResolvedAddress && isFalsy fetchOptions.address &&
        path.fetcher.isNone) = false ∧
      ∃ response, path.request candidate.url fetchOptions trace = (.ok response, last) ∧
        response.body = some body ∧
        (200 ≤ response.status.getD 0 ∧ response.status.getD 0 < 300) ∧
        attempt.hash = some (sha256 platform body) := by
  unfold fetchCandidate at h
  split at h
  · cases h
  · rename_i hopen
    refine ⟨Bool.eq_false_of_not_eq_true hopen, ?_⟩
    -- `fetchCandidate` catches what the request throws, so only a response leads to a success.
    rw [Run.bind_ok (Run.attempt_apply _ _)] at h
    cases hrequest : path.request candidate.url fetchOptions trace with
    | mk outcome next =>
        rw [hrequest] at h
        cases outcome with
        | error error => cases h
        | ok response =>
            dsimp only at h
            unfold attemptOfResponse at h
            cases hbody : response.body with
            | none =>
                rw [hbody] at h
                cases h
            | some received =>
                rw [hbody] at h
                dsimp only at h
                split at h
                · rename_i hstatus
                  cases h
                  exact ⟨response, rfl, hbody, hstatus, rfl⟩
                · cases h

/-- A loop that ends with a success has made its last request for it. -/
theorem fetch_loop_success {discovery : DiscoveryOptions} {candidates : List Candidate}
    {attempts attempts' : List SkillAttempt} {candidate : Candidate} {attempt : SkillAttempt}
    {body : JSString}
    (h : fetchLoop platform discovery candidates attempts trace =
      (.ok (attempts', some (candidate, attempt, body)), last)) :
    candidate ∈ candidates ∧ attempt.hash = some (sha256 platform body) ∧
      ∃ requires before response,
        candidateUsesResolvedName platform.idna candidate.url discovery.name = .ok requires ∧
          isBlocked discovery requires = false ∧
          discovery.fetchPath.request candidate.url (candidateOptions discovery requires) before =
            (.ok response, last) ∧
          response.body = some body ∧
          (200 ≤ response.status.getD 0 ∧ response.status.getD 0 < 300) := by
  induction candidates generalizing attempts trace with
  | nil => cases h
  | cons first rest ih =>
      rw [fetchLoop] at h
      obtain ⟨requires, same, huses, hrest⟩ := Run.bind_eq_ok h
      obtain rfl : trace = same := congrArg Prod.snd huses
      obtain ⟨⟨made, found⟩, next, hfetch, hrest⟩ := Run.bind_eq_ok hrest
      -- The loop returns with the first success, and its request is then the last event.
      cases found with
      | some found =>
          cases hrest
          obtain ⟨hopen, response, hrequest, hbody, hstatus, hhash⟩ :=
            fetch_candidate_success hfetch
          exact ⟨List.mem_cons_self, hhash, requires, trace, response, congrArg Prod.fst huses,
            hopen, hrequest, hbody, hstatus⟩
      | none =>
          obtain ⟨hmem, hfound⟩ := ih hrest
          exact ⟨List.mem_cons_of_mem _ hmem, hfound⟩

/-! ## Answers of a client -/

/-- Over the client a request is answered only with the response that its promise was resolved with.
A promise that stays pending answers nothing. -/
def SkillClient.Answers (client : SkillClient) (idna : Idna) (trace : Trace) :
    (event : Event) → Except JSError event.Answer → Prop
  | .requestSkill urlString options, answer => ∀ response, answer = .ok response →
      ∃ request, requestOptions idna urlString options = .ok request ∧
        (runHandlers maxSkillBytes (client trace request)).promise = some response
  | _, _ => True

/-- An exception is no response. -/
theorem SkillClient.answers_error (client : SkillClient) (idna : Idna) (trace : Trace)
    (event : Event) (error : JSError) : client.Answers idna trace event (.error error) := by
  cases event with
  | requestSkill urlString options => exact fun response hresponse => by cases hresponse
  | resolveName name => trivial
  | resolveTxt name => trivial
  | fetch url options => trivial

/-- What `requestSkill` answers is what the promise was resolved with. -/
theorem request_skill_answers {client : SkillClient} (h : client.Settles) (idna : Idna)
    (trace : Trace) (urlString : JSString) (options : FetchOptions) :
    client.Answers idna trace (.requestSkill urlString options)
      (SkillClient.requestSkill h idna trace urlString options) := by
  intro response hresponse
  unfold SkillClient.requestSkill at hresponse
  obtain ⟨request, hrequest, hreturn⟩ := bind_returns hresponse
  cases hreturn
  exact ⟨request, hrequest, (Option.some_get _).symm⟩

/-- Where a skill comes from that was found for a name at addresses: the last request of the run,
and the bytes that it was answered with. -/
structure ComesFrom (platform : Platform) (client : SkillClient) (name : JSString)
    (addresses : List JSString) (skill : SkillResult) (last : Trace) (url : Url)
    (request : RequestOptions) (bytes : List UInt8) : Prop where
  reported : skill.url = some url.href
  sent : IsSentFor platform.idna name addresses url url.href request
  answer : ∃ before fetchOptions status, last = before ++ [.requestSkill url.href fetchOptions] ∧
    requestOptions platform.idna url.href fetchOptions = .ok request ∧
    (200 ≤ status ∧ status ≤ 299) ∧ IsWholeBody maxSkillBytes (client before request) status bytes
  hash : skill.hash = some (platform.sha256 (encode (decode bytes)))
  metadata : skill.metadata = some (parseSkillMd (ofScalars (decode bytes))).metadata

/-- A skill that discovery finds comes from the last request. -/
theorem discovery_found {client : SkillClient} (hidna : platform.idna.IsStable)
    {discovery : DiscoveryOptions} {skill : SkillResult}
    (hscheme : IsDefaultScheme (discovery.defaultScheme.getD (text "https")))
    (hpath : discovery.fetchPath.fetcher = none)
    (hclient : ∀ trace urlString fetchOptions, client.Answers platform.idna trace
      (.requestSkill urlString fetchOptions)
      (discovery.fetchPath.requestSkill trace urlString fetchOptions))
    (h : discoverSkillMd platform discovery trace = (.ok skill, last))
    (hfound : skill.found = true) :
    ∃ url request bytes, ComesFrom platform client discovery.name discovery.addresses skill last
      url request bytes := by
  obtain ⟨plan, same, hplan, hrest⟩ := Run.bind_eq_ok h
  obtain rfl : trace = same := congrArg Prod.snd hplan
  have hplan : buildSkillCandidatePlan platform.idna discovery.name discovery.metadata
      (discovery.defaultScheme.getD (text "https")) = .ok plan := congrArg Prod.fst hplan
  obtain ⟨⟨attempts, outcome⟩, next, hloop, hreturn⟩ := Run.bind_eq_ok hrest
  cases outcome with
  | none =>
      cases hreturn
      cases hfound
  | some outcome =>
      obtain ⟨candidate, attempt, body⟩ := outcome
      cases hreturn
      obtain ⟨hmem, hhash, requires, before, response, huses, hopen, hrequest, hbody, hstatus⟩ :=
        fetch_loop_success hloop
      obtain ⟨url, hrequestable, hurl⟩ := planned_candidate_again hidna hscheme hplan hmem
      -- The request of the success is one of the loop, so `IsRequestFor.request` describes it.
      have hmade : IsRequestFor platform discovery candidate
          (.requestSkill url.href (candidateOptions discovery requires)) := by
        refine ⟨requires, huses, hopen, ?_⟩
        rw [FetchPath.event, hpath, hurl]
      obtain ⟨hoptions, hsent⟩ := (hmade.request hrequestable hurl).sent
      rw [FetchPath.request, hpath] at hrequest
      obtain ⟨hanswer, rfl⟩ := Prod.mk.inj hrequest
      rw [hurl] at hanswer
      obtain ⟨request, hsame, hpromise⟩ := hclient _ _ _ response hanswer
      obtain rfl := Except.ok.inj (hoptions.symm.trans hsame)
      have hrange : 200 ≤ response.status.getD 0 ∧ response.status.getD 0 ≤ 299 :=
        ⟨hstatus.1, Int.le_of_lt_add_one hstatus.2⟩
      obtain ⟨bytes, hwhole, rfl⟩ := answered_success hpromise hbody hrange
      refine ⟨url, _, bytes, congrArg some hurl, hsent,
        ⟨before, _, _, ?_, hoptions, hrange, hwhole⟩, ?_, rfl⟩
      · rw [hurl]
      · rw [← hash_input_of_body, ← sha256_input]
        exact hhash

/-- A skill that a run of `resolve` finds comes from its last request. -/
theorem resolve_found {client : SkillClient} (hidna : platform.idna.IsStable)
    (hscheme : IsDefaultScheme (options.defaultScheme.getD (text "https")))
    (hpath : options.fetchPath.fetcher = none)
    (hclient : ∀ trace urlString fetchOptions, client.Answers platform.idna trace
      (.requestSkill urlString fetchOptions)
      (options.fetchPath.requestSkill trace urlString fetchOptions))
    {input : JSString} {result : ResolveResult}
    (h : resolve json platform options input trace = (.ok result, last))
    (hfound : result.skill.found = true) :
    ∃ url request bytes, ComesFrom platform client result.name result.addresses result.skill last
      url request bytes := by
  obtain ⟨⟨name, dnsResult, search⟩, next, hlookup, hrest⟩ := Run.bind_eq_ok h
  obtain ⟨skill, between, hskill, hbuild⟩ := Run.bind_eq_ok hrest
  cases hbuild
  rw [discoverOrSkip] at hskill
  split at hskill
  · exact @discovery_found platform next last client hidna _ skill hscheme hpath hclient hskill
      hfound
  · cases hskill
    cases hfound

/-- A skill that a call of `resolve` reports as found, over any source and any client, comes from
the last request of the call. All the bytes that were delivered before the end of its response are
the body, they fit the limit and came under a status in the 2xx range, and the hash and the metadata
are those of the decoded bytes. -/
theorem found_skill_delivered (json : Json) (platform : Platform) (options : ResolverOptions)
    (client : SkillClient) (hidna : platform.idna.IsStable)
    (hscheme : IsDefaultScheme (options.defaultScheme.getD (text "https")))
    (hpath : options.fetchPath.fetcher = none) {input : JSString}
    (call : ResolveCall json platform options input)
    (hclient : MeetsAll (client.Answers platform.idna) call.exchanges) {result : ResolveResult}
    (h : call.outcome = some (.ok result)) (hfound : result.skill.found = true) :
    ∃ url request bytes, ComesFrom platform client result.name result.addresses result.skill
      call.events url request bytes := by
  -- The exchanges say nothing of other traces, so an environment is chosen that always meets it.
  obtain ⟨answers, hanswers, hall⟩ := @exists_answered_by _ _ _ (client.Answers platform.idna)
    call.exchanges (fun _ _ => .error ⟨text "no answer"⟩)
    (fun trace event => client.answers_error _ trace event _) hclient
  refine @resolve_found json platform (options.over answers) [] _ client hidna hscheme ?_
    (fun trace urlString fetchOptions => hall trace (.requestSkill urlString fetchOptions)) input
    result (ResolveCall.AnsweredBy.settled hanswers h) hfound
  exact Option.map_eq_none_iff.mpr hpath

/-- The events for a path, where there is a skill at one path, in two chunks. -/
def sampleExchange (path : JSString) : List RequestEvent :=
  if path = text "/skill.md" then
    [.response (some 200), .data [0x23, 0x20], .data [0x41], .endOfBody, .close]
  else [.response (some 404), .endOfBody, .close]

theorem sample_exchange_closed (path : JSString) : IsClosedExchange (sampleExchange path) := by
  unfold sampleExchange
  split
  · exact ⟨_, rfl, rfl, by simp [AllSteps, DropsOnlyDestroyed]⟩
  · exact ⟨_, rfl, rfl, by simp [AllSteps, DropsOnlyDestroyed]⟩

/-- A client with these events for every request. -/
def sampleClient : SkillClient := fun _ request => sampleExchange request.path

theorem sample_settles : sampleClient.Settles :=
  settles_of_closed fun _ request => sample_exchange_closed request.path

/-- A forced discovery over the client. -/
def sampleOptions : ResolverOptions :=
  { forcedOptions with
    fetchPath := ⟨none, SkillClient.requestSkill sample_settles Platform.ascii.idna⟩ }

/-- The second request is answered with a skill, which is found. -/
theorem found_skill_delivered_example :
    ∃ (call : ResolveCall .rejecting .ascii sampleOptions (text "example"))
      (result : ResolveResult), call.outcome = some (.ok result) ∧
      result.skill.url = some (text "https://example/skill.md") ∧
      ∃ url request bytes, ComesFrom .ascii sampleClient result.name result.addresses result.skill
        call.events url request bytes := by
  have hidna : Platform.ascii.idna.IsStable :=
    ⟨fun _ _ h => absurd h (Option.some_ne_none _).symm,
      fun _ _ h => absurd h (Option.some_ne_none _).symm⟩
  have hskill : ((resolve .rejecting .ascii sampleOptions (text "example") []).1.toOption.map
      fun result => (result.skill.found, result.skill.url)) =
        some (true, some (text "https://example/skill.md")) := by
    decide +kernel
  obtain ⟨call, hanswers, houtcome, -⟩ :=
    ResolveCall.exists_run .rejecting .ascii sampleOptions (text "example")
  have hclient : MeetsAll (sampleClient.Answers Platform.ascii.idna) call.exchanges := by
    intro before exchange after hsplit
    rw [hanswers before exchange after hsplit]
    cases exchange.1 with
    | requestSkill urlString fetchOptions =>
        exact request_skill_answers sample_settles _ _ urlString fetchOptions
    | resolveName name => trivial
    | resolveTxt name => trivial
    | fetch url fetchOptions => trivial
  cases hrun : (resolve .rejecting .ascii sampleOptions (text "example") []).1 with
  | error error =>
      rw [hrun] at hskill
      cases hskill
  | ok result =>
      rw [hrun] at hskill houtcome
      obtain ⟨hfound, hurl⟩ := Prod.mk.inj (Option.some.inj hskill)
      exact ⟨call, result, houtcome, hurl, found_skill_delivered .rejecting .ascii sampleOptions
        sampleClient hidna (Or.inr rfl) rfl call hclient houtcome hfound⟩

end AgentResolver
