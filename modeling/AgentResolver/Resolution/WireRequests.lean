import AgentResolver.Resolution.Returns
import AgentResolver.Skill.RequestOptions

/-!
# What a run sends

The requests of `resolve` followed to Node's client: the URL that is planned is the URL that is
sent, and on the name itself the request is made to a resolved address (`requests_sent`).
-/

namespace AgentResolver

open JavaScript Web
open Interaction Sequence

variable {json : Json} {platform : Platform} {options : ResolverOptions} {trace : Trace}
  {urlString : JSString} {fetchOptions : FetchOptions}

/-- A call of `requestSkill` for a URL: with the first nonempty address where the host is the name,
and without an address elsewhere. -/
structure IsRequestOf (idna : Idna) (name : JSString) (addresses : List JSString) (url : Url)
    (urlString : JSString) (fetchOptions : FetchOptions) : Prop where
  requestable : IsRequestable idna url
  text : url.href = urlString
  pinned : normalizeHostname url.hostname = normalizeHostname name →
    ∃ address, selectAddress addresses = some address ∧ fetchOptions.address = some address
  other : normalizeHostname url.hostname ≠ normalizeHostname name → fetchOptions.address = none

/-- A request of the loop is one for the URL of its candidate. -/
theorem IsRequestFor.request {discovery : DiscoveryOptions} {candidate : Candidate} {url : Url}
    (h : IsRequestFor platform discovery candidate (.requestSkill urlString fetchOptions))
    (hrequestable : IsRequestable platform.idna url) (hurl : candidate.url = url.href) :
    IsRequestOf platform.idna discovery.name discovery.addresses url urlString fetchOptions := by
  obtain ⟨requires, huses, hopen, hevent⟩ := h
  -- An injected fetcher would have been called in place of `requestSkill`.
  have hfetcher : discovery.fetchPath.fetcher = none := by
    cases hfetcher : discovery.fetchPath.fetcher with
    | none => rfl
    | some fetch =>
        rw [FetchPath.event, hfetcher] at hevent
        cases hevent
  rw [FetchPath.event, hfetcher] at hevent
  obtain ⟨rfl, rfl⟩ := Event.requestSkill.inj hevent
  rw [candidateUsesResolvedName, hurl, hrequestable.again] at huses
  obtain rfl : decide (normalizeHostname url.hostname = normalizeHostname discovery.name) =
      requires := Except.ok.inj huses
  refine ⟨hrequestable, hurl.symm, fun hname => ?_, fun hname => ?_⟩
  · rw [decide_eq_true hname] at hopen ⊢
    obtain ⟨address, haddress⟩ := address_of_open hfetcher hopen
    exact ⟨address, haddress, haddress⟩
  · rw [decide_eq_false hname]
    rfl

/-- A discovery that makes a request returns, and every request is for a URL of its plan. -/
theorem discovery_request (hidna : platform.idna.IsStable) {discovery : DiscoveryOptions}
    (hscheme : IsDefaultScheme (discovery.defaultScheme.getD (text "https"))) {added : Trace}
    (hrun : (discoverSkillMd platform discovery trace).2 = trace ++ added)
    (hmem : .requestSkill urlString fetchOptions ∈ added) :
    (∃ skill last, discoverSkillMd platform discovery trace = (.ok skill, last)) ∧
      ∃ url, IsRequestOf platform.idna discovery.name discovery.addresses url urlString
        fetchOptions := by
  obtain ⟨made, asked, hmade, hall, hasked⟩ := discover_skill_md_events platform discovery trace
  obtain rfl : added = made := List.append_cancel_left (hrun.symm.trans hmade)
  obtain ⟨candidate, hcandidate, hrequest⟩ := candidate_of_request hall hmem
  rcases hasked with rfl | ⟨plan, hplan, hsub⟩
  · exact absurd hcandidate List.not_mem_nil
  · obtain ⟨url, hrequestable, hurl⟩ :=
      planned_candidate_again hidna hscheme hplan (hsub.subset hcandidate)
    exact ⟨(discover_returns_iff hidna hscheme).mpr ((has_plan_iff hscheme).mpr ⟨plan, hplan⟩),
      url, hrequest.request hrequestable hurl⟩

/-- A discovery stage that makes a request returns, and every request is for a URL of its plan. -/
theorem discover_or_skip_request (hidna : platform.idna.IsStable)
    (hscheme : IsDefaultScheme (options.defaultScheme.getD (text "https"))) {name : JSString}
    {metadata : Option Identity} {addresses : List JSString} {added : Trace}
    (hrun : (discoverOrSkip platform options name metadata addresses trace).2 = trace ++ added)
    (hmem : .requestSkill urlString fetchOptions ∈ added) :
    (∃ skill last,
        discoverOrSkip platform options name metadata addresses trace = (.ok skill, last)) ∧
      ∃ url, IsRequestOf platform.idna name addresses url urlString fetchOptions := by
  rw [discoverOrSkip] at hrun ⊢
  by_cases hdiscovers : (metadata.isSome || options.forceSkillDiscovery) = true
  · rw [if_pos hdiscovers] at hrun ⊢
    exact discovery_request hidna hscheme hrun hmem
  · rw [if_neg hdiscovers] at hrun
    obtain rfl : added = [] := List.append_cancel_left (hrun.symm.trans (List.append_nil _).symm)
    exact absurd hmem List.not_mem_nil

/-- Every call of `requestSkill` in a run of `resolve`, over any source, is in a run that returns,
and is a request at one of the addresses of the result where the host is the name of the result. -/
theorem resolve_request (hidna : platform.idna.IsStable)
    (hscheme : IsDefaultScheme (options.defaultScheme.getD (text "https"))) {input : JSString}
    {events : Trace} (hrun : (resolve json platform options input trace).2 = trace ++ events)
    (hmem : .requestSkill urlString fetchOptions ∈ events) :
    ∃ result, (resolve json platform options input trace).1 = .ok result ∧
      normalizeHandshakeName input = .ok result.name ∧
      ∃ url,
        IsRequestOf platform.idna result.name result.addresses url urlString fetchOptions := by
  obtain ⟨before, hbefore, hlookups⟩ := @lookup_metadata_events json options input trace
  -- The lookup stage requests nothing, so the request is behind it.
  have hafter {added : Trace} (hadded : trace ++ events = trace ++ before ++ added) :
      .requestSkill urlString fetchOptions ∈ added := by
    rw [List.append_assoc] at hadded
    rw [List.append_cancel_left hadded] at hmem
    rcases List.mem_append.mp hmem with hmem | hmem
    · cases hlookups _ hmem
    · exact hmem
  cases hlookup : lookupMetadata json options input trace with
  | mk outcome next =>
      rw [hlookup] at hbefore
      obtain rfl : next = trace ++ before := hbefore
      cases outcome with
      | error error =>
          rw [resolve, Run.bind_error hlookup] at hrun
          exact absurd (hafter (hrun.symm.trans (List.append_nil _).symm)) List.not_mem_nil
      | ok found =>
          obtain ⟨name, dnsResult, search⟩ := found
          obtain ⟨added, hadded, -⟩ := @discover_or_skip_events platform options name
            (search.parsed.bind ParseResult.identity)
            (effectiveAddresses dnsResult (search.parsed.bind ParseResult.identity))
            (trace ++ before)
          have hsame : trace ++ events = trace ++ before ++ added := by
            rw [← hrun, resolve_trace hlookup, hadded]
          obtain ⟨⟨skill, last, hskill⟩, url, hrequest⟩ :=
            discover_or_skip_request hidna hscheme hadded (hafter hsame)
          rw [resolve, Run.bind_ok hlookup]
          dsimp only
          rw [Run.bind_ok hskill]
          exact ⟨_, rfl, (lookup_metadata_returns hlookup).1, url, hrequest⟩

/-- What is handed to Node's client for a URL string, on behalf of a name at addresses. A server
that puts the request together gets the URL without its credentials, its fragment and an empty
query. The client and the port are those of the URL, and the `servername` is always its hostname.
The `hostname` is the first nonempty address where the hostname of the URL is the name, and
elsewhere this hostname, which has brackets for an IPv6 address. -/
structure IsSentFor (idna : Idna) (name : JSString) (addresses : List JSString) (url : Url)
    (urlString : JSString) (request : RequestOptions) : Prop where
  parsed : newUrl idna urlString = some url
  text : url.href = urlString
  target : newUrl idna request.target = some (sentUrl url)
  client : request.secure = true ↔ url.scheme = "https".toList
  port : some request.port = url.port.or (defaultPort url.scheme)
  servername : request.servername = url.hostname
  pinned : normalizeHostname url.hostname = normalizeHostname name →
    selectAddress addresses = some request.hostname
  other : normalizeHostname url.hostname ≠ normalizeHostname name → request.hostname = url.hostname

/-- A call of `requestSkill` for a URL hands over a request for it. -/
theorem IsRequestOf.sent {idna : Idna} {name : JSString} {addresses : List JSString} {url : Url}
    (h : IsRequestOf idna name addresses url urlString fetchOptions) :
    requestOptions idna urlString fetchOptions = .ok (clientOptions url fetchOptions) ∧
      IsSentFor idna name addresses url urlString (clientOptions url fetchOptions) := by
  have hagain : newUrl idna urlString = some url := h.text ▸ h.requestable.again
  obtain ⟨hclient, hport⟩ := client_of_scheme h.requestable.scheme fetchOptions
  refine ⟨by rw [requestOptions, hagain], hagain, h.text,
    request_target_again h.requestable fetchOptions, hclient, hport, rfl, fun hhost => ?_,
    fun hhost => ?_⟩
  · obtain ⟨address, hselect, haddress⟩ := h.pinned hhost
    rw [hselect, clientOptions, haddress]
    rfl
  · rw [clientOptions, h.other hhost]
    rfl

/-- Each call of `requestSkill` that a call of `resolve` has made, over any source and answered or
not, hands over a request for the URL that was planned. If everything is answered in the end, with
whatever, the call of `resolve` returns a result, and the request is for the name and at the
addresses of this result. -/
theorem requests_sent (json : Json) (platform : Platform) (options : ResolverOptions)
    (hidna : platform.idna.IsStable)
    (hscheme : IsDefaultScheme (options.defaultScheme.getD (text "https"))) {input : JSString}
    (call : ResolveCall json platform options input)
    {answers : Interaction.Answers Event Event.Answer JSError} (hanswers : call.AnsweredBy answers)
    (hmem : .requestSkill urlString fetchOptions ∈ call.events) :
    ∃ result url request,
      (resolve json platform (options.over answers) input []).1 = .ok result ∧
      (∀ outcome, call.outcome = some outcome → outcome = .ok result) ∧
      requestOptions platform.idna urlString fetchOptions = .ok request ∧
      IsSentFor platform.idna result.name result.addresses url urlString request := by
  obtain ⟨result, hresult, -, url, hrequest⟩ :=
    @resolve_request json platform (options.over answers) [] urlString fetchOptions hidna hscheme
      input _ (List.nil_append _).symm (hanswers.begins.subset hmem)
  refine ⟨result, url, clientOptions url fetchOptions, hresult, fun outcome houtcome => ?_,
    hrequest.sent⟩
  rw [← hresult, hanswers.settled houtcome]

/-- A forced discovery for a name with an address: the first request is made to this address. -/
theorem requests_sent_example :
    ∃ (call : ResolveCall .rejecting .ascii forcedOptions (text "Example."))
      (result : ResolveResult) (url : Url) (request : RequestOptions),
      call.outcome = some (.ok result) ∧
      IsSentFor .ascii result.name result.addresses url (text "https://example/SKILL.md") request ∧
      selectAddress result.addresses = some request.hostname := by
  have hidna : Platform.ascii.idna.IsStable :=
    ⟨fun _ _ h => absurd h (Option.some_ne_none _).symm,
      fun _ _ h => absurd h (Option.some_ne_none _).symm⟩
  obtain ⟨call, hanswers, houtcome, hevents⟩ :=
    ResolveCall.exists_run .rejecting .ascii forcedOptions (text "Example.")
  have hmem : .requestSkill (text "https://example/SKILL.md")
      { address := some (text "192.0.2.1")
        requiresResolvedAddress := true
        name := text "example"
        timeoutMs := defaultSkillFetchTimeoutMs } ∈ call.events := by
    rw [hevents]
    decide +kernel
  have hhost : ((newUrl Platform.ascii.idna (text "https://example/SKILL.md")).map
      fun url => normalizeHostname url.hostname) = some (text "example") := by
    decide +kernel
  have hname : ((resolve .rejecting .ascii forcedOptions (text "Example.") []).1.toOption.map
      ResolveResult.name) = some (text "example") := by
    decide +kernel
  obtain ⟨result, url, request, -, hresult, -, hsent⟩ :=
    requests_sent .rejecting .ascii forcedOptions hidna (Or.inr rfl) call hanswers hmem
  rw [hsent.parsed] at hhost
  have hreturned := hresult _ houtcome
  rw [hreturned] at hname houtcome
  have hsame : result.name = text "example" := Option.some.inj hname
  refine ⟨call, result, url, request, houtcome, hsent, hsent.pinned ?_⟩
  exact (Option.some.inj hhost).trans (by rw [hsame]; rfl)

end AgentResolver
