import AgentResolver.Metadata.Republish
import AgentResolver.Resolution.Returns
import AgentResolver.Service.Queries
import AgentResolver.Service.Replies

/-!
# From a published identity to the reply

An identity that is printed into a TXT record at one of the lookup names is what the service replies
with: `published_identity_served`. The record may be cut into segments and stand among others, the
name may be written in any spelling that is accepted, and the request may have other parameters.
-/

namespace AgentResolver

open JavaScript Web
open Interaction (Run.bind_ok Run.lift_apply)

variable {system : System} {json : Json} {platform : Platform} {servers : List JSString}
  {identity : Identity}

/-! ## The record among others -/

/-- The value that publishes a normal identity is read as the identity. -/
theorem publication_identity (h : IsNormal identity)
    (hjson : PrintsObject json (identityObject identity))
    (hlength : (publication json identity).length ≤ maxTxtValueLength) :
    ∃ again, foundIdentity json (publication json identity) = some again ∧
      SameIdentity identity again := by
  obtain ⟨hok, again, hagain, hsame⟩ := normal_accepted_again h
  refine ⟨again, ?_, hsame⟩
  rw [foundIdentity, publication, printed_object_parse hjson hlength, readObject, validationResult,
    hok, hagain]

/-- The first record with metadata decides. -/
theorem parse_first_found {before after : List TxtRecord} {record : TxtRecord}
    (hbefore : ∀ earlier ∈ before, foundIdentity json (joinTxtRecord earlier) = none)
    (hrecord : foundIdentity json (joinTxtRecord record) = some identity) :
    (parseTxtRecords json (before ++ record :: after)).status = .found ∧
      (parseTxtRecords json (before ++ record :: after)).identity = some identity ∧
      (parseTxtRecords json (before ++ record :: after)).record =
        some (joinTxtRecord record) := by
  have hvalues : (before ++ record :: after).map joinTxtRecord =
      before.map joinTxtRecord ++ joinTxtRecord record :: after.map joinTxtRecord := by
    rw [List.map_append, List.map_cons]
  have hnone : ∀ value ∈ before.map joinTxtRecord, foundIdentity json value = none := by
    intro value hvalue
    obtain ⟨earlier, hearlier, rfl⟩ := List.mem_map.mp hvalue
    exact hbefore earlier hearlier
  unfold parseTxtRecords
  simp only [hvalues]
  rw [parse_loop_found hnone hrecord]
  exact ⟨rfl, rfl, rfl⟩

theorem SameIdentity.has_plan {again : Identity} (h : SameIdentity identity again) {idna : Idna}
    {scheme name : JSString} (hplan : HasPlan idna scheme name identity.strings) :
    HasPlan idna scheme name again.strings := by
  have hendpoint : declaredEndpoint again.strings = declaredEndpoint identity.strings :=
    (h.strings _).symm
  have hskill : declaredSkill again.strings = declaredSkill identity.strings := (h.strings _).symm
  obtain ⟨hvalid, hresolves⟩ := hplan
  unfold HasPlan
  rw [hendpoint]
  exact ⟨hvalid, by rw [hskill]; exact hresolves⟩

/-! ## The zone -/

/-- Where and how an identity is published: its record stands at the lookup name, no record before
it in the answer and no lookup name before this one has metadata. -/
structure IsPublished (json : Json) (dns : DnsResolver) (lookups : List Lookup) (lookup : Lookup)
    (identity : Identity) : Prop where
  normal : IsNormal identity
  printed : PrintsObject json (identityObject identity)
  length_le : (publication json identity).length ≤ maxTxtValueLength
  first : ∃ before after, lookups = before ++ lookup :: after ∧
    ∀ earlier ∈ before, ¬ HasMetadata json (dns.resolveTxt earlier.queryName)
  record : ∃ before record after,
    dns.resolveTxt lookup.queryName = .records (before ++ record :: after) ∧
      joinTxtRecord record = publication json identity ∧
      ∀ earlier ∈ before, foundIdentity json (joinTxtRecord earlier) = none

/-- A search over the zone finds the identity. -/
theorem IsPublished.search {dns : DnsResolver} {lookups : List Lookup} {lookup : Lookup}
    (h : IsPublished json dns lookups lookup identity) (name : JSString) :
    ∃ again parsed, SameIdentity identity again ∧
      (searchResult dns json name lookups).parsed = some parsed ∧
      parsed.identity = some again ∧ parsed.record = some (publication json identity) ∧
      (searchResult dns json name lookups).lookup = some lookup := by
  obtain ⟨before, after, hlookups, hearlier⟩ := h.first
  obtain ⟨others, record, rest, hrecords, hrecord, hothers⟩ := h.record
  obtain ⟨again, hagain, hsame⟩ := publication_identity h.normal h.printed h.length_le
  rw [← hrecord] at hagain
  obtain ⟨hfound, hidentity, hraw⟩ :=
    @parse_first_found json again others rest record hothers hagain
  obtain ⟨hparsed, -, hlookup, -⟩ :=
    (first_metadata json dns name lookups).first before lookup after _ hlookups hearlier hrecords
      hfound
  exact ⟨again, _, hsame, hparsed, hidentity, hrecord ▸ hraw, hlookup⟩

/-- What a result says of a published identity. -/
structure ReportsPublished (json : Json) (identity : Identity) (name : JSString) (lookup : Lookup)
    (result : ResolveResult) : Prop where
  status : result.status = .found
  name : result.name = name
  metadata : ∃ again, result.metadata = some again ∧ SameIdentity identity again
  rawMetadata : result.rawMetadata = some (publication json identity)
  queryName : result.queryName = some lookup.queryName
  agentReady : result.agentReady = identity.ready.getD true

/-- A run over the zone returns and reports the identity. -/
theorem IsPublished.resolve {dns : DnsResolver} {options : ResolverOptions}
    {lookups : List Lookup} {lookup : Lookup} {input name : JSString}
    (h : IsPublished json dns lookups lookup identity)
    (hsource : options.source = dns.source (if servers.isEmpty then none else some servers))
    (hname : normalizeHandshakeName input = .ok name)
    (hlookups : buildLookupNames name options.lookupLocations = .ok lookups)
    (hidna : platform.idna.IsStable)
    (hscheme : IsDefaultScheme (options.defaultScheme.getD (text "https")))
    (hplan : HasPlan platform.idna (options.defaultScheme.getD (text "https")) name
      identity.strings) (trace : Trace) :
    ∃ result last, AgentResolver.resolve json platform options input trace = (.ok result, last) ∧
      ReportsPublished json identity name lookup result := by
  obtain ⟨again, parsed, hsame, hparsed, hidentity, hraw, hlookup⟩ := h.search name
  have hmetadata : (searchResult dns json name lookups).parsed.bind ParseResult.identity =
      some again := by
    rw [hparsed]
    exact hidentity
  have hstage := lookup_metadata_dns dns _ json hsource hname hlookups trace
  -- The plan is that of the identity as it is read back, which has the same texts.
  obtain ⟨result, last, hrun⟩ := (resolve_returns_of_lookup hidna hscheme hstage).mpr fun _ => by
    rw [hmetadata]
    exact hsame.has_plan hplan
  refine ⟨result, last, hrun, ?_⟩
  obtain ⟨name', dnsResult, search, skill, next, hstage', rfl⟩ := resolve_returns hrun
  rw [hstage] at hstage'
  cases hstage'
  refine ⟨?_, rfl, ⟨again, hmetadata, hsame⟩, ?_, ?_, ?_⟩
  · simp [buildResult, hmetadata]
  · simp [buildResult, hparsed, hraw]
  · simp [buildResult, hmetadata, hlookup]
  · simp [buildResult, hmetadata, hsame.ready]

/-! ## The reply -/

/-- The resolver behind a service that is started with the servers. -/
def System.dnsFor (system : System) (servers : List JSString) : Except JSError DnsResolver :=
  if servers.isEmpty then .ok system.newResolver.outcomes else system.newResolver.setServers servers

/-- The handler's resolver over the system. -/
def systemResolver (system : System) (json : Json) (platform : Platform) : ResolveAgentIdentity :=
  fun name options => (resolveAgentIdentity system json platform name options.agentOptions []).1

/-- The resolver that a request is answered with. -/
def requestResolver (system : System) (dns : DnsResolver) (servers : List JSString)
    (fields : List (ScalarString × ScalarString)) : ResolverOptions where
  source := dns.source (if servers.isEmpty then none else some servers)
  lookupLocations := none
  timeoutMs := none
  fetchPath := ⟨none, system.requestSkill⟩
  defaultScheme := none
  forceSkillDiscovery := (requestedOptions servers fields).forceSkillDiscovery

theorem new_request_resolver {dns : DnsResolver} (h : system.dnsFor servers = .ok dns)
    (fields : List (ScalarString × ScalarString)) :
    newAgentIdentityResolver system (requestedOptions servers fields).agentOptions =
      .ok (requestResolver system dns servers fields) := by
  unfold System.dnsFor at h
  unfold requestResolver requestedOptions ServerOptions.agentOptions newAgentIdentityResolver
  cases hservers : servers.isEmpty with
  | true =>
      rw [hservers] at h
      cases h
      rfl
  | false =>
      rw [hservers] at h
      have hset : system.newResolver.setServers servers = .ok dns := h
      simp only [Bool.false_eq_true, if_false, Option.map_some, newDnsSource, AgentOptions.empty,
        Option.getD_some, DnsOptions.empty, Option.getD_none, hset]
      rfl

/-- A request for a name under which an identity is published is replied to with 200 and a result
with this identity. -/
theorem published_identity_served {dns : DnsResolver}
    {fields : List (ScalarString × ScalarString)} {host : Option JSString} {base : Url}
    {input : ScalarString} {name : JSString} {lookups : List Lookup} {lookup : Lookup}
    (hdns : system.dnsFor servers = .ok dns)
    (hbase : newUrl platform.idna (requestBase host) = some base)
    (hfield : fields.lookup "name".toList = some input)
    (hname : normalizeHandshakeName (ofScalars input) = .ok name)
    (hlookups : buildLookupNames name none = .ok lookups)
    (hpublished : IsPublished json dns lookups lookup identity)
    (hidna : platform.idna.IsStable)
    (hplan : HasPlan platform.idna (text "https") name identity.strings) :
    ∃ result, (handleRequest platform.idna servers (systemResolver system json platform)
        (encodedTarget fields) host []).2.filterMap sentReply = [⟨200, .result result⟩] ∧
      ReportsPublished json identity name lookup result := by
  have hne : input ≠ [] := by
    rintro rfl
    cases hname
  obtain ⟨result, last, hrun, hreports⟩ := @IsPublished.resolve json platform servers identity dns
    (requestResolver system dns servers fields) lookups lookup _ name hpublished rfl hname hlookups
    hidna (Or.inr rfl) hplan []
  have hanswer : systemResolver system json platform (ofScalars input)
      (requestedOptions servers fields) = .ok result := by
    rw [systemResolver, resolveAgentIdentity, new_request_resolver hdns,
      Run.bind_ok (Run.lift_apply _ _), hrun]
  refine ⟨result, ?_, hreports⟩
  rw [encoded_request_run hbase servers _ hfield hne, hanswer, resolvedReply, hreports.status]
  rfl

/-- A system whose DNS has one TXT answer, with the record behind another one and in segments. -/
def publishingSystem : System :=
  { System.offline with
    newResolver :=
      { System.offline.newResolver with
        outcomes := txtOnlyResolver (text "_agent.example")
          [.single (text "v=spf1 -all"),
            .segments [metadataPrefix,
              (languageJson JSError.mk).stringify (.object (identityObject wordIdentity))]] } }

theorem published_identity_served_example :
    ∃ result, (handleRequest .ascii []
        (systemResolver publishingSystem (languageJson JSError.mk) .ascii)
        (encodedTarget [("name".toList, "Example.".toList)]) none []).2.filterMap sentReply =
          [⟨200, .result result⟩] ∧
      ReportsPublished (languageJson JSError.mk) wordIdentity (text "example")
        ⟨text "_agent", text "_agent.example"⟩ result := by
  have hidna : Platform.ascii.idna.IsStable :=
    ⟨fun _ _ h => absurd h (Option.some_ne_none _).symm,
      fun _ _ h => absurd h (Option.some_ne_none _).symm⟩
  have hpublished : IsPublished (languageJson JSError.mk) publishingSystem.newResolver.outcomes
      [⟨text "@", text "example"⟩, ⟨text "_agent", text "_agent.example"⟩,
        ⟨text "_agent-identity", text "_agent-identity.example"⟩]
      ⟨text "_agent", text "_agent.example"⟩ wordIdentity :=
    { normal := parsed_normal (show (parseTxtRecords (languageJson JSError.mk)
        [.single (text "agent-capabilities: a")]).identity = some wordIdentity from rfl)
      printed := word_identity_printed JSError.mk
      length_le := by decide +kernel
      first := ⟨[⟨text "@", text "example"⟩], _, rfl, by
        intro earlier hearlier
        rw [List.mem_singleton.mp hearlier]
        rintro ⟨list, hlist, -⟩
        cases hlist⟩
      record := ⟨[.single (text "v=spf1 -all")], _, [], rfl, by decide +kernel, by
        intro earlier hearlier
        rw [List.mem_singleton.mp hearlier]
        rfl⟩ }
  exact @published_identity_served publishingSystem (languageJson JSError.mk) .ascii []
    wordIdentity _ [("name".toList, "Example.".toList)] none _ "Example.".toList (text "example")
    _ _ rfl rfl rfl rfl rfl hpublished hidna ⟨rfl, fun reference h => by cases h⟩

end AgentResolver
