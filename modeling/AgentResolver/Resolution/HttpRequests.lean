import AgentResolver.Interaction.Among
import AgentResolver.Resolution.DnsResolution
import AgentResolver.Skill.Planning

/-!
# The URLs a run may request

Everything a run of `resolve` requests over HTTP is a URL of one candidate plan, whatever the
lookup source and the fetcher do: `requests_bounded`.
-/

namespace AgentResolver

open JavaScript Web
open Interaction Sequence

variable {json : Json} {platform : Platform} {options : ResolverOptions}

/-! ## The lookup stage -/

/-- The events of `resolveName`: a source without the method is asked for TXT records. -/
def nameEvents (source : Source) (name : JSString) : Trace :=
  match source.resolveName, source.resolveTxt with
  | some _, _ => [.resolveName name]
  | none, some _ => [.resolveTxt name]
  | none, none => []

theorem resolve_name_among (source : Source) (name : JSString) :
    Run.Among (nameEvents source name) (resolveName source name) := by
  unfold resolveName nameEvents
  cases source.resolveName with
  | some answer =>
      exact @Run.among_bind _ _ _ _ [_] [] _ _ (Run.among_call _ _) fun _ => Run.among_pure _
  | none =>
      cases source.resolveTxt with
      | some answer =>
          exact @Run.among_bind _ _ _ _ [_] [] _ _ (Run.among_call _ _) fun _ => Run.among_pure _
      | none =>
          exact @Run.among_bind _ _ _ _ [] [] _ _ (Run.among_pure _) fun _ => Run.among_pure _

theorem lookup_records_among (source : Source) (name : JSString) (dnsResult : DnsResult)
    (lookup : Lookup) :
    Run.Among (txtQueries name [lookup]) (lookupRecords source name dnsResult lookup) := by
  unfold lookupRecords
  by_cases hapex : lookup.queryName = name
  · rw [if_pos hapex]
    dsimp only
    split
    · exact Run.among_pure _
    · exact Run.among_pure _
  · have hquery : txtQueries name [lookup] = [.resolveTxt lookup.queryName] ++ [] := by
      simp [txtQueries, hapex]
    have hanswer (response : TxtAnswer) : Run.Among []
        (if isLookupErrorStatus response.status then
          pure (.error (lookupErrorAttempt lookup response.code response.message none))
        else pure (.ok (response.records.getD [])) : Run (Except Attempt (List TxtRecord))) := by
      split
      · exact Run.among_pure _
      · exact Run.among_pure _
    rw [if_neg hapex, hquery]
    cases source.resolveTxt with
    | none => exact Run.among_bind (Run.among_throw _) hanswer
    | some answer => exact Run.among_bind (Run.among_call _ _) hanswer

theorem txt_queries_cons (name : JSString) (lookup : Lookup) (rest : List Lookup) :
    txtQueries name (lookup :: rest) = txtQueries name [lookup] ++ txtQueries name rest := by
  unfold txtQueries
  rw [← List.map_append, ← List.filter_append]
  rfl

theorem find_loop_among (source : Source) (name : JSString) (dnsResult : DnsResult)
    (lookups : List Lookup) (attempts : List Attempt) :
    Run.Among (txtQueries name lookups)
      (findLoop json source name dnsResult lookups attempts) := by
  induction lookups generalizing attempts with
  | nil => exact Run.among_pure _
  | cons lookup rest ih =>
      rw [findLoop, txt_queries_cons]
      refine Run.among_bind (lookup_records_among source name dnsResult lookup) fun outcome => ?_
      cases outcome with
      | error attempt => exact ih _
      | ok records =>
          dsimp only
          split
          · exact Run.among_pure _
          · exact ih _

/-- The calls of the metadata search for a name: none, if the lookup locations are not usable. -/
def searchCalls (options : ResolverOptions) (name : JSString) : Trace :=
  match buildLookupNames name options.lookupLocations with
  | .ok lookups => txtQueries name lookups
  | .error _ => []

/-- The calls of the lookup stage. -/
def lookupCalls (options : ResolverOptions) (name : JSString) : Trace :=
  nameEvents options.source name ++ searchCalls options name

theorem lookup_metadata_among {input name : JSString}
    (hname : normalizeHandshakeName input = .ok name) :
    Run.Among (lookupCalls options name) (lookupMetadata json options input) := by
  unfold lookupMetadata
  refine Run.among_lift_bind fun same hsame => ?_
  obtain rfl := Except.ok.inj (hname.symm.trans hsame)
  refine Run.among_bind (resolve_name_among _ _) fun dnsResult => ?_
  have hfind : Run.Among (searchCalls options name)
      (findMetadata json options.source name dnsResult options.lookupLocations) := by
    refine Run.among_lift_bind fun lookups hlookups => ?_
    rw [searchCalls, hlookups]
    exact find_loop_among _ _ _ _ _
  rw [← List.append_nil (searchCalls options name)]
  exact Run.among_bind hfind fun _ => Run.among_pure _

/-- The lookup stage requests no URL. -/
theorem lookup_calls_url {name : JSString} {event : Event} (h : event ∈ lookupCalls options name) :
    requestedUrl event = none := by
  rcases List.mem_append.mp h with hname | hsearch
  · unfold nameEvents at hname
    split at hname
    · rw [List.mem_singleton.mp hname]
      rfl
    · rw [List.mem_singleton.mp hname]
      rfl
    · exact absurd hname List.not_mem_nil
  · unfold searchCalls at hsearch
    split at hsearch
    · obtain ⟨lookup, -, rfl⟩ := List.mem_map.mp hsearch
      rfl
    · exact absurd hsearch List.not_mem_nil

/-- Without a name nothing is asked for. -/
theorem lookup_metadata_rejected {input : JSString} {error : JSError}
    (h : normalizeHandshakeName input = .error error) (trace : Trace) :
    lookupMetadata json options input trace = (.error error, trace) := by
  rw [lookupMetadata, h]
  exact Run.bind_error (Run.lift_apply _ _)

theorem lookup_metadata_events (input : JSString) :
    Run.Emits (fun event => requestedUrl event = none) (lookupMetadata json options input) := by
  cases hname : normalizeHandshakeName input with
  | error error =>
      intro trace
      rw [lookup_metadata_rejected hname]
      exact ⟨[], (List.append_nil trace).symm, fun event hevent => absurd hevent List.not_mem_nil⟩
  | ok name => exact (lookup_metadata_among hname).emits fun event => lookup_calls_url

/-! ## The discovery stage -/

/-- What may be requested for a name and its metadata. -/
structure AreRequestsFor (idna : Idna) (scheme name : JSString) (metadata : Properties JSString)
    (urls : List JSString) : Prop where
  distinct : urls.Nodup
  length_le : urls.length ≤ 4
  schemes : ∀ url ∈ urls, startsWith url (text "http://") ∨ startsWith url (text "https://")
  planned : ∀ url ∈ urls,
    IsPlannedUrl idna (expectedOrigin idna scheme name (declaredEndpoint metadata))
      (declaredSkill metadata) url

theorem no_requests (idna : Idna) (scheme name : JSString) (metadata : Properties JSString) :
    AreRequestsFor idna scheme name metadata [] := by
  constructor <;> simp

/-- A discovery run requests URLs of its plan, each at most once. -/
theorem discover_requests {discovery : DiscoveryOptions}
    (hscheme : IsDefaultScheme (discovery.defaultScheme.getD (text "https"))) (trace : Trace) :
    ∃ added, (discoverSkillMd platform discovery trace).2 = trace ++ added ∧
      AreRequestsFor platform.idna (discovery.defaultScheme.getD (text "https")) discovery.name
        discovery.metadata (added.filterMap requestedUrl) := by
  obtain ⟨added, asked, hrun, hall, hplan⟩ := discover_skill_md_events platform discovery trace
  refine ⟨added, hrun, ?_⟩
  rw [requested_urls hall]
  rcases hplan with rfl | ⟨plan, hplan, hsub⟩
  · exact no_requests _ _ _ _
  · obtain ⟨hcontents, hvalid, -⟩ := build_plan_ok hscheme hplan
    obtain ⟨base, horigin⟩ := Option.isSome_iff_exists.mp hvalid
    have hbase := expected_origin_http hscheme horigin
    have hplanned : ∀ url ∈ asked.map Candidate.url,
        IsPlannedUrl platform.idna
          (expectedOrigin platform.idna (discovery.defaultScheme.getD (text "https"))
            discovery.name (declaredEndpoint discovery.metadata))
          (declaredSkill discovery.metadata) url := by
      intro url hurl
      obtain ⟨candidate, hcandidate, rfl⟩ := List.mem_map.mp hurl
      exact planned_url hcontents (hsub.subset hcandidate)
    constructor
    · exact hcontents.distinct.sublist (hsub.map _)
    · rw [List.length_map]
      exact hsub.length_le.trans (plan_length_le hcontents)
    · exact fun url hurl => planned_url_http horigin hbase (hplanned url hurl)
    · exact hplanned

/-! ## Whole runs -/

/-- What a run requests after its lookup stage: nothing, unless metadata was found or discovery is
forced. -/
theorem resolve_requests (platform : Platform) {name normalizedName : JSString}
    {dnsResult : DnsResult} {search : MetadataResult} {trace next : Trace}
    (hscheme : IsDefaultScheme (options.defaultScheme.getD (text "https")))
    (hlookup : lookupMetadata json options name trace =
      (.ok (normalizedName, dnsResult, search), next)) :
    ∃ added, (resolve json platform options name trace).2 = next ++ added ∧
      (added.filterMap requestedUrl ≠ [] →
        (search.parsed.bind ParseResult.identity).isSome ∨ options.forceSkillDiscovery = true) ∧
      AreRequestsFor platform.idna (options.defaultScheme.getD (text "https")) normalizedName
        ((search.parsed.bind ParseResult.identity).elim [] Identity.strings)
        (added.filterMap requestedUrl) := by
  rw [resolve_trace hlookup, discoverOrSkip]
  by_cases hdiscovers : ((search.parsed.bind ParseResult.identity).isSome ||
      options.forceSkillDiscovery) = true
  · rw [if_pos hdiscovers]
    obtain ⟨added, hadded, hrequests⟩ := @discover_requests platform
      { name := normalizedName
        metadata := (search.parsed.bind ParseResult.identity).elim [] Identity.strings
        addresses := effectiveAddresses dnsResult (search.parsed.bind ParseResult.identity)
        timeoutMs := options.timeoutMs
        fetchPath := options.fetchPath
        defaultScheme := options.defaultScheme } hscheme next
    exact ⟨added, hadded, fun _ => Bool.or_eq_true_iff.mp hdiscovers, hrequests⟩
  · rw [if_neg hdiscovers]
    exact ⟨[], (List.append_nil next).symm, fun hnever => absurd rfl hnever, no_requests _ _ _ _⟩

/-- The URLs that a run of `resolve` requests: at most four distinct ones of the schemes http and
https, each from the plan of the metadata found. There are none when no metadata was found and
discovery is not forced. -/
theorem requests_bounded (json : Json) (platform : Platform) (options : ResolverOptions)
    (name : JSString) (trace : Trace)
    (hscheme : IsDefaultScheme (options.defaultScheme.getD (text "https"))) :
    ∃ events, (resolve json platform options name trace).2 = trace ++ events ∧
      (events.filterMap requestedUrl).Nodup ∧ (events.filterMap requestedUrl).length ≤ 4 ∧
      (∀ url ∈ events.filterMap requestedUrl,
        startsWith url (text "http://") ∨ startsWith url (text "https://")) ∧
      ∀ url ∈ events.filterMap requestedUrl,
        ∃ normalizedName dnsResult search next,
          lookupMetadata json options name trace =
              (.ok (normalizedName, dnsResult, search), next) ∧
            ((search.parsed.bind ParseResult.identity).isSome ∨
              options.forceSkillDiscovery = true) ∧
            let metadata := (search.parsed.bind ParseResult.identity).elim [] Identity.strings
            IsPlannedUrl platform.idna
              (expectedOrigin platform.idna (options.defaultScheme.getD (text "https"))
                normalizedName (declaredEndpoint metadata)) (declaredSkill metadata) url := by
  obtain ⟨before, hbefore, hlookups⟩ := @lookup_metadata_events json options name trace
  have hnone : before.filterMap requestedUrl = [] := by
    rw [List.filterMap_eq_nil_iff]
    exact hlookups
  cases hlookup : lookupMetadata json options name trace with
  | mk outcome next =>
      rw [hlookup] at hbefore
      obtain rfl : next = trace ++ before := hbefore
      cases outcome with
      | error error =>
          refine ⟨before, ?_, ?_⟩
          · rw [resolve, Run.bind_error hlookup]
          · rw [hnone]
            simp
      | ok found =>
          obtain ⟨normalizedName, dnsResult, search⟩ := found
          obtain ⟨added, hadded, hrequests⟩ := resolve_requests platform hscheme hlookup
          refine ⟨before ++ added, ?_, ?_⟩
          · rw [hadded, List.append_assoc]
          · rw [List.filterMap_append, hnone, List.nil_append]
            -- The lookup stage requests nothing, so the URLs are those of the discovery stage.
            obtain ⟨hdiscovers, hbounds⟩ := hrequests
            refine ⟨hbounds.distinct, hbounds.length_le, hbounds.schemes, fun url hurl => ?_⟩
            have hne : added.filterMap requestedUrl ≠ [] := List.ne_nil_of_mem hurl
            exact ⟨normalizedName, dnsResult, search, _, rfl, hdiscovers hne,
              hbounds.planned url hurl⟩

/-- A forced discovery over a resolver with an address. -/
def forcedOptions : ResolverOptions :=
  { optionsOver addressResolver with forceSkillDiscovery := true }

/-- A forced discovery whose requests are refused makes three. -/
theorem requests_bounded_example :
    ∃ events, (resolve .rejecting .ascii forcedOptions (text "example") []).2 = [] ++ events ∧
      events.filterMap requestedUrl =
        [text "https://example/SKILL.md", text "https://example/skill.md",
          text "https://example/.well-known/agent/SKILL.md"] ∧
      (events.filterMap requestedUrl).Nodup ∧ (events.filterMap requestedUrl).length ≤ 4 := by
  obtain ⟨events, hrun, hnodup, hlength, -⟩ := requests_bounded .rejecting .ascii forcedOptions
    (text "example") [] (Or.inr rfl)
  have hurls : (resolve .rejecting .ascii forcedOptions (text "example") []).2.filterMap
      requestedUrl =
        [text "https://example/SKILL.md", text "https://example/skill.md",
          text "https://example/.well-known/agent/SKILL.md"] := by
    decide +kernel
  rw [hrun, List.nil_append] at hurls
  exact ⟨events, hrun, hurls, hnodup, hlength⟩

end AgentResolver
