import AgentResolver.Metadata.Republish
import AgentResolver.Resolution.Calls

/-!
# The results of `resolve`

What holds of every result, whatever the source and the fetcher do: `result_consistent`. The
metadata is in normal form, the attempts at SKILL.md end with the one that was found, and the
members that repeat a part of the result agree with it.
-/

namespace AgentResolver

open JavaScript Web
open Interaction Sequence

variable {json : Json} {platform : Platform} {options : ResolverOptions} {trace last : Trace}

/-! ## Attempts at SKILL.md -/

/-- An attempt that records an answer for a candidate: it has a hash exactly when it is found, and
then its status is in the 2xx range. -/
structure IsAttemptAt (candidate : Candidate) (attempt : SkillAttempt) : Prop where
  url : attempt.url = candidate.url
  path : attempt.path = candidate.path
  hash : attempt.hash.isSome = attempt.found
  status : attempt.found = true → 200 ≤ attempt.status ∧ attempt.status < 300

theorem attempt_of_response_at (candidate : Candidate) (response : Response) :
    IsAttemptAt candidate (attemptOfResponse platform candidate response).1 ∧
      (attemptOfResponse platform candidate response).1.found =
        (attemptOfResponse platform candidate response).2.isSome := by
  unfold attemptOfResponse
  cases response.body with
  | none => exact ⟨⟨rfl, rfl, rfl, fun h => by cases h⟩, rfl⟩
  | some body =>
      dsimp only
      split
      · rename_i hstatus
        exact ⟨⟨rfl, rfl, rfl, fun _ => hstatus⟩, rfl⟩
      · exact ⟨⟨rfl, rfl, rfl, fun h => by cases h⟩, rfl⟩

theorem fetch_candidate_at {path : FetchPath} {candidate : Candidate}
    {fetchOptions : FetchOptions} {attempt : SkillAttempt} {body : Option JSString}
    (h : fetchCandidate platform path candidate fetchOptions trace = (.ok (attempt, body), last)) :
    IsAttemptAt candidate attempt ∧ attempt.found = body.isSome := by
  unfold fetchCandidate at h
  split at h
  · cases h
    exact ⟨⟨rfl, rfl, rfl, fun h => by cases h⟩, rfl⟩
  · rw [Run.bind_ok (Run.attempt_apply _ _)] at h
    have hmade (response : Response)
        (h : attemptOfResponse platform candidate response = (attempt, body)) :
        IsAttemptAt candidate attempt ∧ attempt.found = body.isSome := by
      have hat := @attempt_of_response_at platform candidate response
      rw [h] at hat
      exact hat
    cases hrequest : (path.request candidate.url fetchOptions trace).1 with
    | ok response =>
        rw [hrequest] at h
        exact hmade response (Except.ok.inj (congrArg Prod.fst h))
    | error error =>
        rw [hrequest] at h
        exact hmade _ (Except.ok.inj (congrArg Prod.fst h))

/-- How the loop over candidates ends: with the first attempt that is found, or without one. -/
inductive LoopEnd (candidates : List Candidate) : List SkillAttempt →
    Option (Candidate × SkillAttempt × JSString) → Prop
  | exhausted (attempts : List SkillAttempt)
      (made : List.Forall₂ IsAttemptAt candidates attempts)
      (missed : ∀ attempt ∈ attempts, attempt.found = false) :
      LoopEnd candidates attempts none
  | found (before : List Candidate) (candidate : Candidate) (rest : List Candidate)
      (attempts : List SkillAttempt) (attempt : SkillAttempt) (body : JSString)
      (split : candidates = before ++ candidate :: rest)
      (made : List.Forall₂ IsAttemptAt before attempts)
      (missed : ∀ attempt ∈ attempts, attempt.found = false)
      (last : IsAttemptAt candidate attempt) (hit : attempt.found = true) :
      LoopEnd candidates (attempts ++ [attempt]) (some (candidate, attempt, body))

theorem LoopEnd.cons {candidates : List Candidate} {attempts : List SkillAttempt}
    {outcome : Option (Candidate × SkillAttempt × JSString)} {candidate : Candidate}
    {attempt : SkillAttempt} (h : LoopEnd candidates attempts outcome)
    (hmade : IsAttemptAt candidate attempt) (hmissed : attempt.found = false) :
    LoopEnd (candidate :: candidates) (attempt :: attempts) outcome := by
  have hall {attempts : List SkillAttempt} (h : ∀ other ∈ attempts, other.found = false) :
      ∀ other ∈ attempt :: attempts, other.found = false := by
    intro other hother
    rcases List.mem_cons.mp hother with rfl | hother
    · exact hmissed
    · exact h other hother
  cases h with
  | exhausted attempts made missed => exact .exhausted _ (.cons hmade made) (hall missed)
  | found before candidate rest attempts attempt body split made missed last hit =>
      exact .found _ _ rest (_ :: attempts) _ _ (by rw [split]; rfl) (.cons hmade made)
        (hall missed) last hit

theorem fetch_loop_end {discovery : DiscoveryOptions} {candidates : List Candidate}
    {attempts attempts' : List SkillAttempt}
    {outcome : Option (Candidate × SkillAttempt × JSString)}
    (h : fetchLoop platform discovery candidates attempts trace =
      (.ok (attempts', outcome), last)) :
    ∃ made, attempts' = attempts ++ made ∧ LoopEnd candidates made outcome := by
  induction candidates generalizing attempts trace with
  | nil =>
      cases h
      exact ⟨[], (List.append_nil _).symm,
        .exhausted [] .nil fun attempt hattempt => absurd hattempt List.not_mem_nil⟩
  | cons candidate rest ih =>
      rw [fetchLoop] at h
      obtain ⟨requires, same, -, hrest⟩ := Run.bind_eq_ok h
      obtain ⟨⟨attempt, body⟩, next, hfetch, hrest⟩ := Run.bind_eq_ok hrest
      obtain ⟨hmade, hfound⟩ := fetch_candidate_at hfetch
      -- A candidate with a body ends the loop, the others are passed on to the rest.
      cases body with
      | some body =>
          cases hrest
          exact ⟨[attempt], rfl, .found [] candidate rest [] attempt body rfl .nil
            (fun attempt hattempt => absurd hattempt List.not_mem_nil) hmade hfound⟩
      | none =>
          obtain ⟨made, hattempts, hend⟩ := ih hrest
          exact ⟨attempt :: made, by rw [hattempts, List.append_assoc]; rfl,
            hend.cons hmade hfound⟩

/-! ## SKILL.md results -/

/-- A result of discovery, or of a skipped one: the attempts are at distinct URLs, and only the last
one can be found. Then the result is that of this attempt. Otherwise there is no URL, no hash and no
metadata, and the canonical path is that of the first attempt, if there is one. -/
structure IsConsistentSkill (skill : SkillResult) : Prop where
  attempts : skill.attempts.length ≤ 4 ∧ (skill.attempts.map SkillAttempt.url).Nodup ∧
    ∀ attempt ∈ skill.attempts, attempt.hash.isSome = attempt.found ∧
      (attempt.found = true → 200 ≤ attempt.status ∧ attempt.status < 300)
  checked : skill.checked = false → skill.attempts = []
  found : skill.found = true → ∃ before attempt, skill.attempts = before ++ [attempt] ∧
    (∀ earlier ∈ before, earlier.found = false) ∧ attempt.found = true ∧
    skill.checked = true ∧ skill.url = some attempt.url ∧
    skill.canonicalPath = some attempt.path ∧ skill.hash = attempt.hash ∧ skill.metadata.isSome
  missing : skill.found = false → (∀ attempt ∈ skill.attempts, attempt.found = false) ∧
    skill.url = none ∧ skill.hash = none ∧ skill.metadata = none ∧
    skill.canonicalPath = skill.attempts.head?.map SkillAttempt.path

/-- The attempts that a loop over a plan has made. -/
theorem attempts_made {candidates : List Candidate} {attempts : List SkillAttempt}
    (h : List.Forall₂ IsAttemptAt candidates attempts) :
    attempts.map SkillAttempt.url = candidates.map Candidate.url ∧
      ∀ attempt ∈ attempts, attempt.hash.isSome = attempt.found ∧
        (attempt.found = true → 200 ≤ attempt.status ∧ attempt.status < 300) := by
  induction h with
  | nil => exact ⟨rfl, fun attempt hattempt => absurd hattempt List.not_mem_nil⟩
  | cons hat _ ih =>
      refine ⟨by rw [List.map_cons, List.map_cons, hat.url, ih.1], fun attempt hattempt => ?_⟩
      rcases List.mem_cons.mp hattempt with rfl | hattempt
      · exact ⟨hat.hash, hat.status⟩
      · exact ih.2 attempt hattempt

/-- The first attempt is at the path of the first candidate. -/
theorem first_path {candidates : List Candidate} {attempts : List SkillAttempt}
    (h : List.Forall₂ IsAttemptAt candidates attempts) :
    candidates.head?.map Candidate.path = attempts.head?.map SkillAttempt.path := by
  cases h with
  | nil => rfl
  | cons hat _ => exact congrArg some hat.path.symm

theorem discovery_consistent {discovery : DiscoveryOptions} {skill : SkillResult}
    (h : discoverSkillMd platform discovery trace = (.ok skill, last)) :
    IsConsistentSkill skill := by
  obtain ⟨plan, same, hplan, hrest⟩ := Run.bind_eq_ok h
  obtain ⟨hnodup, hlength⟩ := plan_urls (congrArg Prod.fst hplan)
  obtain ⟨⟨attempts, outcome⟩, next, hloop, hreturn⟩ := Run.bind_eq_ok hrest
  obtain ⟨made, rfl, hend⟩ := fetch_loop_end hloop
  -- The attempts are at the first URLs of the plan.
  have hbounded {asked : List Candidate} {attempts : List SkillAttempt}
      (hmade : List.Forall₂ IsAttemptAt asked attempts) (hasked : asked <+: plan.candidates) :
      attempts.length ≤ 4 ∧ (attempts.map SkillAttempt.url).Nodup ∧
        ∀ attempt ∈ attempts, attempt.hash.isSome = attempt.found ∧
          (attempt.found = true → 200 ≤ attempt.status ∧ attempt.status < 300) := by
    obtain ⟨hurls, hall⟩ := attempts_made hmade
    refine ⟨?_, ?_, hall⟩
    · exact hmade.length_eq ▸ hasked.sublist.length_le.trans hlength
    · exact hurls ▸ hnodup.sublist (hasked.sublist.map _)
  cases hend with
  | exhausted attempts hmade hmissed =>
      cases hreturn
      refine ⟨hbounded hmade (List.prefix_refl _), fun hunchecked => ?_, fun hfound => ?_,
        fun _ => ⟨hmissed, rfl, rfl, rfl, first_path hmade⟩⟩
      · have hempty : plan.candidates = [] := by simpa using hunchecked
        exact List.eq_nil_of_length_eq_zero (hmade.length_eq ▸ congrArg List.length hempty)
      · cases hfound
  | found before candidate rest attempts attempt body hsplit hmade hmissed hlast hhit =>
      cases hreturn
      have hasked : before ++ [candidate] <+: plan.candidates :=
        ⟨rest, by rw [hsplit, List.append_assoc]; rfl⟩
      have hall : List.Forall₂ IsAttemptAt (before ++ [candidate]) (attempts ++ [attempt]) :=
        List.rel_append hmade (.cons hlast .nil)
      refine ⟨hbounded hall hasked, fun hunchecked => ?_, fun _ => ⟨attempts, attempt, rfl, hmissed,
        hhit, rfl, ?_, ?_, rfl, rfl⟩, fun hmissing => ?_⟩
      · cases hunchecked
      · rw [hlast.url]
      · rw [hlast.path]
      · cases hmissing

theorem discover_or_skip_consistent {name : JSString} {metadata : Option Identity}
    {addresses : List JSString} {skill : SkillResult}
    (h : discoverOrSkip platform options name metadata addresses trace = (.ok skill, last)) :
    IsConsistentSkill skill ∧
      (skill.checked = true → metadata.isSome ∨ options.forceSkillDiscovery = true) := by
  unfold discoverOrSkip at h
  split at h
  · rename_i hdiscovers
    exact ⟨discovery_consistent h, fun _ => by simpa using hdiscovers⟩
  · cases h
    refine ⟨⟨⟨Nat.zero_le _, List.nodup_nil, fun attempt hattempt => ?_⟩, fun _ => rfl,
      fun hfound => ?_, fun _ => ⟨fun attempt hattempt => ?_, rfl, rfl, rfl, rfl⟩⟩,
      fun hchecked => ?_⟩
    · exact absurd hattempt List.not_mem_nil
    · cases hfound
    · exact absurd hattempt List.not_mem_nil
    · cases hchecked

/-! ## Results -/

/-- Metadata that a search finds is in normal form, and the validator accepts its object again. -/
theorem search_identity {input name : JSString} {dnsResult : DnsResult} {search : MetadataResult}
    (h : lookupMetadata json options input trace = (.ok (name, dnsResult, search), last))
    {identity : Identity} (hidentity : search.parsed.bind ParseResult.identity = some identity) :
    IsNormal identity ∧ (validateAgentIdentityMetadata (.object (identityObject identity))).ok := by
  obtain ⟨-, lookups, next, -, -, hloop⟩ := lookup_metadata_returns h
  obtain ⟨asked, entries, hend, -, -⟩ := find_loop_run hloop
  generalize hparsed : search.parsed = parsed at hend hidentity
  generalize search.lookup = stop at hend
  cases hend with
  | exhausted entries failed => cases hidentity
  | found before lookup rest entries records split failed status =>
      have hnormal := parsed_normal hidentity
      exact ⟨hnormal, (normal_accepted_again hnormal).1⟩

/-- A name is resolved when there are addresses. -/
theorem resolve_name_resolved {source : Source} {name : JSString} {dnsResult : DnsResult}
    (h : resolveName source name trace = (.ok dnsResult, last)) (hresolved : dnsResult.resolved) :
    dnsResult.addresses ≠ [] := by
  have hmade (answer : NameAnswer) (hanswer : dnsResult = normalizeDnsResult answer source) :
      dnsResult.addresses ≠ [] := by
    obtain rfl := hanswer
    have hsome : (!(normalizeDnsResult answer source).addresses.isEmpty) = true := hresolved
    simpa using hsome
  unfold resolveName at h
  cases hsource : source.resolveName with
  | some resolveName =>
      rw [hsource] at h
      obtain ⟨answer, next, -, hreturn⟩ := Run.bind_eq_ok h
      exact hmade answer (Except.ok.inj (congrArg Prod.fst hreturn)).symm
  | none =>
      rw [hsource] at h
      cases htxt : source.resolveTxt with
      | some resolveTxt =>
          rw [htxt] at h
          obtain ⟨txt, next, -, hreturn⟩ := Run.bind_eq_ok h
          exact hmade (nameAnswerOfTxt txt) (Except.ok.inj (congrArg Prod.fst hreturn)).symm
      | none =>
          rw [htxt] at h
          obtain ⟨txt, next, -, hreturn⟩ := Run.bind_eq_ok h
          exact hmade (nameAnswerOfTxt txt) (Except.ok.inj (congrArg Prod.fst hreturn)).symm

theorem effective_addresses_ne_nil {dnsResult : DnsResult} (h : dnsResult.addresses ≠ [])
    (metadata : Option Identity) : effectiveAddresses dnsResult metadata ≠ [] := by
  rw [effectiveAddresses, if_neg]
  · exact h
  · rw [List.isEmpty_iff]
    exact h

/-- The members of a result that are computed from its metadata and its addresses. -/
structure RepeatsItself (result : ResolveResult) : Prop where
  address : result.address = result.addresses.head?
  metadataFound : result.metadataFound = result.metadata.isSome
  status : result.status = .found ↔ result.metadata.isSome
  agentReady : result.agentReady =
    result.metadata.elim false fun identity => identity.ready.getD true
  capabilities : result.capabilities = result.metadata.elim [] Identity.capabilities
  protocols : result.protocols = result.metadata.elim [] Identity.protocols
  identity : result.identity = result.metadata.map fun identity => (identity, result.name)

theorem build_result_repeats (name : JSString) (dnsResult : DnsResult) (search : MetadataResult)
    (skill : SkillResult) : RepeatsItself (buildResult name dnsResult search skill) := by
  refine ⟨rfl, rfl, ?_, rfl, rfl, rfl, rfl⟩
  show (if (search.parsed.bind ParseResult.identity).isSome then ResolveStatus.found
    else .notFound) = .found ↔ (search.parsed.bind ParseResult.identity).isSome
  split
  · rename_i hfound
    exact ⟨fun _ => hfound, fun _ => rfl⟩
  · rename_i hmissing
    exact ⟨fun hnever => (by cases hnever), fun hfound => absurd hfound hmissing⟩

/-- What holds of every result. -/
structure IsConsistent (options : ResolverOptions) (result : ResolveResult) : Prop where
  name : IsHandshakeName result.name
  metadata : ∀ identity, result.metadata = some identity → IsNormal identity ∧
    (validateAgentIdentityMetadata (.object (identityObject identity))).ok
  skill : IsConsistentSkill result.skill
  checked : result.skill.checked = true →
    result.metadata.isSome ∨ options.forceSkillDiscovery = true
  resolved : result.resolved = true → result.addresses ≠ []
  repeated : RepeatsItself result

/-- Every result is consistent, whatever the source and the fetcher do: the metadata is one that the
validator accepts again, and the attempts at SKILL.md are at most four, at distinct URLs, and end
with the one that was found. They are only made for metadata or by force. The members that repeat
the metadata and the addresses agree with them. -/
theorem result_consistent (json : Json) (platform : Platform) (options : ResolverOptions)
    {input : JSString} {result : ResolveResult}
    (h : resolve json platform options input trace = (.ok result, last)) :
    IsConsistent options result := by
  obtain ⟨⟨name, dnsResult, search⟩, next, hlookup, hrest⟩ := Run.bind_eq_ok h
  obtain ⟨skill, between, hskill, hbuild⟩ := Run.bind_eq_ok hrest
  cases hbuild
  obtain ⟨hconsistent, hchecked⟩ := discover_or_skip_consistent hskill
  obtain ⟨hname, lookups, middle, -, hresolve, -⟩ := lookup_metadata_returns hlookup
  exact
    { name := normalize_valid hname
      metadata := fun identity hidentity => search_identity hlookup hidentity
      skill := hconsistent
      checked := hchecked
      resolved := fun hresolved =>
        effective_addresses_ne_nil (resolve_name_resolved hresolve hresolved) _
      repeated := build_result_repeats name dnsResult search skill }

theorem result_consistent_example :
    ∃ result last,
      resolve .rejecting .ascii (optionsOver (txtOnlyResolver (text "_agent.example")
        [.single (text "hns-agent=v1;id=a")])) (text "Example.") [] = (.ok result, last) ∧
        result.status = .found ∧
        IsConsistent (optionsOver (txtOnlyResolver (text "_agent.example")
          [.single (text "hns-agent=v1;id=a")])) result := by
  obtain ⟨result, last, hrun, hfound⟩ : ∃ result last,
      resolve .rejecting .ascii (optionsOver (txtOnlyResolver (text "_agent.example")
        [.single (text "hns-agent=v1;id=a")])) (text "Example.") [] = (.ok result, last) ∧
        result.status = .found := ⟨_, _, rfl, rfl⟩
  exact ⟨result, last, hrun, hfound, result_consistent .rejecting .ascii _ hrun⟩

end AgentResolver
