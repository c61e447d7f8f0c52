import AgentResolver.Resolution.MetadataSearch
import AgentResolver.Skill.Requests

/-!
# Resolving over DNS

What a run of `resolve` over a `DnsHandshakeSource` returns and asks. `metadata_search_dns` says
that the first lookup name whose TXT records hold metadata decides, and
`addresses_do_not_affect_metadata` that the address lookups decide nothing about the metadata.
-/

namespace AgentResolver

open JavaScript Web
open Interaction Sequence

variable {json : Json} {platform : Platform} {options : ResolverOptions}

/-! ## The stages of a run -/

/-- A run that returns has returned from each of its stages. -/
theorem resolve_returns {input : JSString} {result : ResolveResult} {trace last : Trace}
    (h : resolve json platform options input trace = (.ok result, last)) :
    ∃ normalizedName dnsResult metadataResult skill next,
      lookupMetadata json options input trace =
          (.ok (normalizedName, dnsResult, metadataResult), next) ∧
        result = buildResult normalizedName dnsResult metadataResult skill := by
  obtain ⟨⟨normalizedName, dnsResult, metadataResult⟩, next, hlookup, hrest⟩ := Run.bind_eq_ok h
  obtain ⟨skill, last', _, hbuild⟩ := Run.bind_eq_ok hrest
  refine ⟨normalizedName, dnsResult, metadataResult, skill, next, hlookup, ?_⟩
  have hpair := congrArg Prod.fst hbuild
  exact (Except.ok.inj hpair).symm

/-- The three steps of a lookup stage that returns. -/
theorem lookup_metadata_returns {input name : JSString} {dnsResult : DnsResult}
    {search : MetadataResult} {trace last : Trace}
    (h : lookupMetadata json options input trace = (.ok (name, dnsResult, search), last)) :
    normalizeHandshakeName input = .ok name ∧ ∃ lookups next,
      buildLookupNames name options.lookupLocations = .ok lookups ∧
        resolveName options.source name trace = (.ok dnsResult, next) ∧
        findLoop json options.source name dnsResult lookups [] next = (.ok search, last) := by
  obtain ⟨normalized, first, hnormalize, hrest⟩ := Run.bind_eq_ok h
  obtain rfl : trace = first := congrArg Prod.snd hnormalize
  obtain ⟨resolved, second, hname, hrest⟩ := Run.bind_eq_ok hrest
  obtain ⟨found, third, hsearch, hreturn⟩ := Run.bind_eq_ok hrest
  cases hreturn
  obtain ⟨lookups, same, hlookups, hloop⟩ := Run.bind_eq_ok hsearch
  obtain rfl : second = same := congrArg Prod.snd hlookups
  exact ⟨congrArg Prod.fst hnormalize, lookups, second, congrArg Prod.fst hlookups, hname, hloop⟩

/-- The discovery stage asks for nothing but SKILL.md candidates. -/
theorem discover_or_skip_events (normalizedName : JSString) (metadata : Option Identity)
    (addresses : List JSString) :
    Run.Emits (fun event => (requestedUrl event).isSome)
      (discoverOrSkip platform options normalizedName metadata addresses) := by
  unfold discoverOrSkip
  split
  · intro trace
    obtain ⟨added, asked, hrun, hall, _⟩ := discover_skill_md_events platform _ trace
    refine ⟨added, hrun, fun event hevent => ?_⟩
    obtain ⟨candidate, _, hrequest⟩ := candidate_of_request hall hevent
    simp [hrequest.url]
  · exact Run.emits_pure _

/-- What has happened after a run has happened after its discovery stage. -/
theorem resolve_trace {platform : Platform} {input name : JSString} {dnsResult : DnsResult}
    {search : MetadataResult} {trace next : Trace}
    (h : lookupMetadata json options input trace = (.ok (name, dnsResult, search), next)) :
    (resolve json platform options input trace).2 =
      (discoverOrSkip platform options name (search.parsed.bind ParseResult.identity)
        (effectiveAddresses dnsResult (search.parsed.bind ParseResult.identity)) next).2 := by
  rw [resolve, Run.bind_ok h]
  exact Run.bind_pure_trace _ _ _

/-- The events of a run: those of the lookup stage, then requests. -/
theorem resolve_events (platform : Platform) {input : JSString} {trace next : Trace}
    {found : JSString × DnsResult × MetadataResult}
    (h : lookupMetadata json options input trace = (.ok found, next)) :
    ∃ requests, (resolve json platform options input trace).2 = next ++ requests ∧
      ∀ event ∈ requests, (requestedUrl event).isSome := by
  obtain ⟨normalizedName, dnsResult, metadataResult⟩ := found
  rw [resolve_trace h]
  exact discover_or_skip_events _ _ _ next

/-- A run that finds no metadata and does not force discovery returns. -/
theorem resolve_without_discovery (platform : Platform) {input : JSString} {trace next : Trace}
    {normalizedName : JSString} {dnsResult : DnsResult} {metadataResult : MetadataResult}
    (h : lookupMetadata json options input trace =
      (.ok (normalizedName, dnsResult, metadataResult), next))
    (hnone : metadataResult.parsed = none) (hforce : options.forceSkillDiscovery = false) :
    resolve json platform options input trace =
      (.ok (buildResult normalizedName dnsResult metadataResult
        (skippedSkill (text "skipped_no_metadata"))), next) := by
  rw [resolve, Run.bind_ok h]
  simp [discoverOrSkip, hnone, hforce, Run.bind_apply]

/-! ## The reason -/

/-- The reason is the first of the priority list that some attempt has. -/
theorem final_reason_eq (attempts : List Attempt) :
    finalReasonFromAttempts attempts =
      if attempts.any (·.status = .malformedRecords) then .malformedRecords
      else if attempts.any (·.status = .unsupportedRecords) then .unsupportedRecords
      else if attempts.any (·.status = .lookupError) then .lookupError
      else if attempts.any (·.status = .noCompatibleRecords) then .noCompatibleRecords
      else .noRecords := by
  simp only [finalReasonFromAttempts, List.find?_cons, List.find?_nil]
  cases attempts.any (·.status = .malformedRecords) <;>
    cases attempts.any (·.status = .unsupportedRecords) <;>
    cases attempts.any (·.status = .lookupError) <;>
    cases attempts.any (·.status = .noCompatibleRecords) <;>
    cases attempts.any (·.status = .noRecords) <;> rfl

/-! ## The first lookup name with metadata decides -/

/-- A TXT outcome in which `parseTxtRecords` finds metadata. -/
def HasMetadata (json : Json) (outcome : DnsOutcome TxtRecord) : Prop :=
  ∃ list, outcome = .records list ∧ (parseTxtRecords json list).status = .found

/-- The direct TXT queries for a list of lookup names; the apex is asked by `resolveName`. -/
def txtQueries (name : JSString) (lookups : List Lookup) : Trace :=
  (lookups.filter fun lookup => lookup.queryName ≠ name).map fun lookup =>
    .resolveTxt lookup.queryName

/-- The attempts are one for each lookup name of the list, with the status of its outcome. -/
def AttemptsAt (json : Json) (dns : DnsResolver) (lookups : List Lookup)
    (attempts : List Attempt) : Prop :=
  attempts.map (fun attempt => (attempt.location, attempt.queryName, attempt.status)) =
    lookups.map fun lookup =>
      (lookup.location, lookup.queryName, statusOf json (dns.resolveTxt lookup.queryName))

/-- The search returns what the first lookup name with metadata holds, with the attempts and the
queries up to it. -/
structure FirstMetadata (json : Json) (dns : DnsResolver) (name : JSString)
    (lookups : List Lookup) (result : MetadataResult) (queries : Trace) : Prop where
  found_iff : result.parsed.isSome ↔
    ∃ lookup ∈ lookups, HasMetadata json (dns.resolveTxt lookup.queryName)
  first : ∀ before lookup after list, lookups = before ++ lookup :: after →
    (∀ earlier ∈ before, ¬ HasMetadata json (dns.resolveTxt earlier.queryName)) →
    dns.resolveTxt lookup.queryName = .records list →
    (parseTxtRecords json list).status = .found →
      result.parsed = some (parseTxtRecords json list) ∧
        (parseTxtRecords json list).identity.isSome ∧ result.lookup = some lookup ∧
        AttemptsAt json dns (before ++ [lookup]) result.attempts ∧
        queries = txtQueries name (before ++ [lookup])
  none_found : (∀ lookup ∈ lookups, ¬ HasMetadata json (dns.resolveTxt lookup.queryName)) →
    result.parsed = none ∧ AttemptsAt json dns lookups result.attempts ∧
      queries = txtQueries name lookups

/-- What `resolve` returns for the result of a search. -/
structure ReportsSearch (search : MetadataResult) (result : ResolveResult) : Prop where
  attempts : result.attempts = search.attempts
  metadata : result.metadata = search.parsed.bind ParseResult.identity
  found : result.metadataFound = search.parsed.isSome ∧
    result.status = if search.parsed.isSome then .found else .notFound
  lookup : result.queryName = search.lookup.map Lookup.queryName ∧
    result.location = search.lookup.map Lookup.location
  reason : result.reason =
    if search.parsed.isSome then none
    else if search.attempts.any (·.status = .malformedRecords) then some .malformedRecords
    else if search.attempts.any (·.status = .unsupportedRecords) then some .unsupportedRecords
    else if search.attempts.any (·.status = .lookupError) then some .lookupError
    else if search.attempts.any (·.status = .noCompatibleRecords) then some .noCompatibleRecords
    else some .noRecords

variable {dns : DnsResolver} {servers : Option (List JSString)} {lookups : List Lookup}
  {name : JSString}

theorem has_metadata_iff_found_at {lookup : Lookup} :
    HasMetadata json (dns.resolveTxt lookup.queryName) ↔ foundAt dns json lookup := by
  unfold HasMetadata foundAt foundIn
  cases dns.resolveTxt lookup.queryName with
  | rejected code message => simp
  | records list =>
      by_cases h : (parseTxtRecords json list).status = .found <;> simp [h]

theorem lookup_events_eq (name : JSString) (lookups : List Lookup) :
    lookups.flatMap (lookupEvents name) = txtQueries name lookups := by
  induction lookups with
  | nil => rfl
  | cons lookup rest ih =>
      rw [List.flatMap_cons, ih, lookupEvents, txtQueries, txtQueries]
      by_cases h : lookup.queryName = name <;> simp [h]

theorem attempts_at (json : Json) (dns : DnsResolver) (name : JSString) (lookups : List Lookup) :
    AttemptsAt json dns lookups (lookups.map fun lookup =>
      attemptOf json name lookup (dns.resolveTxt lookup.queryName)) := by
  rw [AttemptsAt, List.map_map]
  refine List.map_congr_left fun lookup _ => ?_
  obtain ⟨hlocation, hquery, hstatus⟩ :=
    attempt_of_names json name lookup (dns.resolveTxt lookup.queryName)
  simp [hlocation, hquery, hstatus]

theorem search_result_found_iff :
    (searchResult dns json name lookups).parsed.isSome ↔
      ∃ lookup ∈ lookups, HasMetadata json (dns.resolveTxt lookup.queryName) := by
  simp only [searchResult, List.findSome?_isSome_iff, has_metadata_iff_found_at, foundAt]

/-- The search, described by the first lookup name with metadata. -/
theorem first_metadata (json : Json) (dns : DnsResolver) (name : JSString)
    (lookups : List Lookup) :
    FirstMetadata json dns name lookups (searchResult dns json name lookups)
      (searchEvents dns json name lookups) where
  found_iff := search_result_found_iff
  first := by
    rintro before lookup after list rfl hbefore hout hfound
    have hskip : ∀ earlier ∈ before, foundAt dns json earlier = false := fun earlier h => by
      simpa [has_metadata_iff_found_at] using hbefore earlier h
    have hin := found_in_records hfound
    rw [← hout] at hin
    have hat : foundAt dns json lookup := by simp [foundAt, hin]
    have hvisited : visited (foundAt dns json) (before ++ lookup :: after) = before ++ [lookup] :=
      visited_of_first hskip hat
    refine ⟨?_, parse_found_iff_identity.mp hfound, find_of_first hskip hat, ?_, ?_⟩
    · have hnone : before.findSome? (fun earlier =>
          foundIn json (dns.resolveTxt earlier.queryName)) = none :=
        List.findSome?_eq_none_iff.mpr fun earlier h => by simpa [foundAt] using hskip earlier h
      simp [searchResult, List.findSome?_append, hnone, hin]
    · simpa only [searchResult, hvisited] using attempts_at json dns name (before ++ [lookup])
    · rw [searchEvents, hvisited, lookup_events_eq]
  none_found := by
    intro hnone
    have hskip : ∀ lookup ∈ lookups, foundAt dns json lookup = false := fun lookup h => by
      simpa [has_metadata_iff_found_at] using hnone lookup h
    have hvisited := visited_of_none hskip
    refine ⟨?_, ?_, ?_⟩
    · exact List.findSome?_eq_none_iff.mpr fun lookup h => by simpa [foundAt] using hskip lookup h
    · simpa only [searchResult, hvisited] using attempts_at json dns name lookups
    · rw [searchEvents, hvisited, lookup_events_eq]

/-- A parse that the search returns has an identity. -/
theorem search_result_identity (json : Json) (dns : DnsResolver) (name : JSString)
    (lookups : List Lookup) :
    ((searchResult dns json name lookups).parsed.bind ParseResult.identity).isSome =
      (searchResult dns json name lookups).parsed.isSome := by
  cases hparsed : (searchResult dns json name lookups).parsed with
  | none => rfl
  | some parsed =>
      obtain ⟨lookup, _, hin⟩ := List.exists_of_findSome?_eq_some hparsed
      obtain ⟨list, _, rfl, hfound⟩ := found_in_eq_some hin
      simp [parse_found_iff_identity.mp hfound]

/-- The search has a lookup name exactly when it has a parse. -/
theorem search_result_lookup (json : Json) (dns : DnsResolver) (name : JSString)
    (lookups : List Lookup) :
    (searchResult dns json name lookups).lookup.isSome =
      (searchResult dns json name lookups).parsed.isSome := by
  rw [Bool.eq_iff_iff, search_result_found_iff]
  simp only [searchResult, List.find?_isSome, has_metadata_iff_found_at]

/-- The result object over the search. -/
theorem reports_search (dnsResult : DnsResult) (skill : SkillResult) :
    ReportsSearch (searchResult dns json name lookups)
      (buildResult name dnsResult (searchResult dns json name lookups) skill) := by
  have hidentity := search_result_identity json dns name lookups
  have hlookup := search_result_lookup json dns name lookups
  refine ⟨rfl, rfl, ⟨hidentity, ?_⟩, ?_, ?_⟩
  · simp only [buildResult, hidentity]
  · simp only [buildResult, hidentity, ← hlookup]
    cases (searchResult dns json name lookups).lookup <;> exact ⟨rfl, rfl⟩
  · simp only [buildResult, hidentity, final_reason_eq]
    split
    · rfl
    · split_ifs <;> rfl

/-- Over the DNS source the metadata is that of the first lookup name whose TXT records hold
metadata, whatever the outcomes before it; the attempts and the queries end there. Without such a
name all are tried and the reason is the first of the priority list. -/
theorem metadata_search_dns (json : Json) (platform : Platform) {options : ResolverOptions}
    {dns : DnsResolver} {servers : Option (List JSString)} {input name : JSString}
    {lookups : List Lookup} (hsource : options.source = dns.source servers)
    (hname : normalizeHandshakeName input = .ok name)
    (hlookups : buildLookupNames name options.lookupLocations = .ok lookups) :
    ∃ result queries, FirstMetadata json dns name lookups result queries ∧
      ∀ trace,
        findMetadata json options.source name (apexResult dns servers name)
            options.lookupLocations trace = (.ok result, trace ++ queries) ∧
        (∃ requests, (resolve json platform options input trace).2 =
            trace ++ .resolveName name :: queries ++ requests ∧
          ∀ event ∈ requests, (requestedUrl event).isSome) ∧
        (∀ outcome last, resolve json platform options input trace = (.ok outcome, last) →
          ReportsSearch result outcome) ∧
        (result.parsed = none → options.forceSkillDiscovery = false →
          ∃ outcome last, resolve json platform options input trace = (.ok outcome, last)) := by
  refine ⟨searchResult dns json name lookups, searchEvents dns json name lookups,
    first_metadata json dns name lookups, fun trace => ?_⟩
  have hlookup := lookup_metadata_dns dns servers json hsource hname hlookups trace
  refine ⟨?_, ?_, ?_, ?_⟩
  · rw [findMetadata, hsource, hlookups]
    exact find_loop_dns dns servers json name lookups [] trace
  · obtain ⟨requests, hrequests, hall⟩ := resolve_events platform hlookup
    exact ⟨requests, hrequests, hall⟩
  · intro outcome last hresolve
    obtain ⟨normalizedName, dnsResult, metadataResult, skill, next, hstage, rfl⟩ :=
      resolve_returns hresolve
    rw [hlookup] at hstage
    cases hstage
    exact reports_search _ _
  · intro hnone hforce
    exact ⟨_, _, resolve_without_discovery platform hlookup hnone hforce⟩

/-- A resolver that has TXT records at one name and nothing else. -/
def txtOnlyResolver (queryName : JSString) (records : List TxtRecord) : DnsResolver where
  resolve4 _ := .rejected (some (text "ESERVFAIL")) (text "queryA ESERVFAIL")
  resolve6 _ := .rejected (some (text "ENODATA")) (text "queryAaaa ENODATA")
  resolveTxt name :=
    if name = queryName then .records records
    else .rejected (some (text "ETIMEOUT")) (text "queryTxt ETIMEOUT")

/-- A resolver over DNS with the default options and no injected fetcher. -/
def optionsOver (dns : DnsResolver) : ResolverOptions where
  source := dns.source none
  lookupLocations := none
  timeoutMs := none
  fetchPath := ⟨none, fun _ _ _ => .error ⟨text "connect ECONNREFUSED"⟩⟩
  defaultScheme := none
  forceSkillDiscovery := false

/-- Metadata below a failed apex lookup is found. -/
theorem metadata_search_dns_example :
    ∃ result queries,
      result.lookup = some ⟨text "_agent", text "_agent.example"⟩ ∧
        queries = [.resolveTxt (text "_agent.example")] ∧
        ∀ trace, findMetadata .rejecting
            ((txtOnlyResolver (text "_agent.example") [.single (text "hns-agent=v1;id=a")]).source
              none)
            (text "example")
            (apexResult (txtOnlyResolver (text "_agent.example")
              [.single (text "hns-agent=v1;id=a")]) none (text "example"))
            none trace = (.ok result, trace ++ queries) := by
  have hlookups : buildLookupNames (text "example") none =
      .ok [⟨text "@", text "example"⟩, ⟨text "_agent", text "_agent.example"⟩,
        ⟨text "_agent-identity", text "_agent-identity.example"⟩] := rfl
  obtain ⟨result, queries, hfirst, hrun⟩ :=
    @metadata_search_dns .rejecting .ascii
      (optionsOver
        (txtOnlyResolver (text "_agent.example") [.single (text "hns-agent=v1;id=a")]))
      _ none (text "example") _ _ rfl rfl hlookups
  obtain ⟨_, _, hlookup, _, hqueries⟩ := hfirst.first [⟨text "@", text "example"⟩]
    ⟨text "_agent", text "_agent.example"⟩
    [⟨text "_agent-identity", text "_agent-identity.example"⟩]
    [.single (text "hns-agent=v1;id=a")] rfl
    (by simp [HasMetadata, txtOnlyResolver, text, unit]) rfl rfl
  exact ⟨result, queries, hlookup, hqueries, fun trace => (hrun trace).1⟩

/-! ## Addresses and metadata -/

/-- The two results agree on everything that is said about the metadata. -/
structure SameMetadata (left right : ResolveResult) : Prop where
  status : left.status = right.status
  reason : left.reason = right.reason
  metadataFound : left.metadataFound = right.metadataFound
  metadata : left.metadata = right.metadata
  rawMetadata : left.rawMetadata = right.rawMetadata
  queryName : left.queryName = right.queryName
  location : left.location = right.location
  attempts : left.attempts = right.attempts

/-- The metadata part of the outcome of the lookup stage. -/
def metadataOutcome (outcome : Except JSError (JSString × DnsResult × MetadataResult)) :
    Except JSError (JSString × MetadataResult) :=
  outcome.map fun found => (found.1, found.2.2)

/-- The search reads nothing but the TXT outcomes. -/
theorem search_result_congr {dns dns' : DnsResolver}
    (h : ∀ queryName, dns.resolveTxt queryName = dns'.resolveTxt queryName) :
    searchResult dns json name lookups = searchResult dns' json name lookups := by
  have hfound : foundAt dns json = foundAt dns' json := by
    funext lookup
    simp only [foundAt, h]
  simp only [searchResult, hfound, h]

/-- The metadata part of the lookup stage over DNS, also where it throws. -/
theorem metadata_outcome_dns {input : JSString} (hsource : options.source = dns.source servers)
    (trace : Trace) :
    metadataOutcome (lookupMetadata json options input trace).1 = do
      let name ← normalizeHandshakeName input
      let lookups ← buildLookupNames name options.lookupLocations
      return (name, searchResult dns json name lookups) := by
  cases hname : normalizeHandshakeName input with
  | error error =>
      rw [lookupMetadata, hname, Run.bind_error (Run.lift_apply _ _)]
      rfl
  | ok name =>
      cases hlookups : buildLookupNames name options.lookupLocations with
      | error error =>
          have hthrows : (do
              let name ← Except.ok name
              let lookups ← buildLookupNames name options.lookupLocations
              return (name, searchResult dns json name lookups)) =
                (.error error : Except JSError (JSString × MetadataResult)) := by
            simp [hlookups, bind, Except.bind]
          have happly : resolveName options.source name trace =
              (.ok (apexResult dns servers name), trace ++ [.resolveName name]) := by
            rw [hsource]
            exact resolve_name_dns dns servers name trace
          rw [lookupMetadata, hname, Run.bind_ok (Run.lift_apply _ _), Run.bind_ok happly,
            findMetadata, hlookups, hthrows]
          rfl
      | ok lookups =>
          rw [lookup_metadata_dns dns servers json hsource hname hlookups]
          simp [metadataOutcome, hlookups, Except.map, bind, Except.bind, pure, Except.pure]

/-- Results over the same metadata agree on it. -/
theorem same_metadata_of_search {normalizedName : JSString} {dnsResult dnsResult' : DnsResult}
    {metadataResult : MetadataResult} {skill skill' : SkillResult} :
    SameMetadata (buildResult normalizedName dnsResult metadataResult skill)
      (buildResult normalizedName dnsResult' metadataResult skill') :=
  ⟨rfl, rfl, rfl, rfl, rfl, rfl, rfl, rfl⟩

/-- The same TXT outcomes as without records at `example`, and an address. -/
def addressResolver : DnsResolver :=
  { txtOnlyResolver (text "example") [] with
    resolve4 := fun _ => .records [text "192.0.2.1"] }

/-- The A and AAAA outcomes decide nothing about the metadata: two runs whose TXT outcomes agree
have the same lookup stage up to the addresses, and their results agree on the metadata. -/
theorem addresses_do_not_affect_metadata (json : Json) (platform : Platform)
    {options options' : ResolverOptions} {dns dns' : DnsResolver}
    {servers servers' : Option (List JSString)} (hsource : options.source = dns.source servers)
    (hsource' : options'.source = dns'.source servers')
    (hlocations : options.lookupLocations = options'.lookupLocations)
    (htxt : ∀ queryName, dns.resolveTxt queryName = dns'.resolveTxt queryName)
    (input : JSString) (trace trace' : Trace) :
    metadataOutcome (lookupMetadata json options input trace).1 =
        metadataOutcome (lookupMetadata json options' input trace').1 ∧
      ∀ result result' last last',
        resolve json platform options input trace = (.ok result, last) →
        resolve json platform options' input trace' = (.ok result', last') →
          SameMetadata result result' := by
  have hstage : metadataOutcome (lookupMetadata json options input trace).1 =
      metadataOutcome (lookupMetadata json options' input trace').1 := by
    rw [metadata_outcome_dns hsource, metadata_outcome_dns hsource', hlocations]
    simp only [search_result_congr htxt]
  refine ⟨hstage, fun result result' last last' hresult hresult' => ?_⟩
  obtain ⟨name, dnsResult, metadataResult, skill, next, hlookup, rfl⟩ := resolve_returns hresult
  obtain ⟨name', dnsResult', metadataResult', skill', next', hlookup', rfl⟩ :=
    resolve_returns hresult'
  rw [hlookup, hlookup'] at hstage
  cases hstage
  exact same_metadata_of_search

/-- A failed address lookup and a successful one leave the same metadata. -/
theorem addresses_do_not_affect_metadata_example :
    ∃ result result' last last',
      resolve .rejecting .ascii (optionsOver (txtOnlyResolver (text "example") []))
          (text "example") [] = (.ok result, last) ∧
        resolve .rejecting .ascii (optionsOver addressResolver) (text "example") [] =
          (.ok result', last') ∧
        result.addresses ≠ result'.addresses ∧ SameMetadata result result' := by
  refine ⟨_, _, _, _, rfl, rfl, by decide, ?_⟩
  obtain ⟨-, hsame⟩ := @addresses_do_not_affect_metadata .rejecting .ascii
    (optionsOver (txtOnlyResolver (text "example") [])) (optionsOver addressResolver)
    (txtOnlyResolver (text "example") []) addressResolver none none rfl rfl rfl (fun _ => rfl)
    (text "example") [] []
  exact hsame _ _ _ _ rfl rfl

end AgentResolver
