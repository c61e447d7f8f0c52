import AgentResolver.Resolution.HttpRequests
import AgentResolver.Resolution.TxtOnlySource

/-!
# Resolving over any source

What a run of `resolve` does and returns whatever its source is and however the source answers:
the answers may depend on everything that happened before. `resolve_search` describes the queries
of the run and the entries and members of its result.
-/

namespace AgentResolver

open JavaScript Web
open Interaction Sequence

variable {json : Json} {platform : Platform} {options : ResolverOptions} {source : Source}
  {name : JSString} {dnsResult : DnsResult}

/-! ## The search -/

def Lookup.place (lookup : Lookup) : JSString × JSString := (lookup.location, lookup.queryName)

def Attempt.place (attempt : Attempt) : JSString × JSString :=
  (attempt.location, attempt.queryName)

/-- The entries of lookups that found no metadata. -/
structure FailedAt (lookups : List Lookup) (entries : List Attempt) : Prop where
  places : entries.map Attempt.place = lookups.map Lookup.place
  none_found : ∀ entry ∈ entries, entry.status ≠ .found

theorem FailedAt.cons {lookups : List Lookup} {entries : List Attempt} {lookup : Lookup}
    {entry : Attempt} (h : FailedAt lookups entries) (hplace : entry.place = lookup.place)
    (hstatus : entry.status ≠ .found) : FailedAt (lookup :: lookups) (entry :: entries) where
  places := by rw [List.map_cons, List.map_cons, hplace, h.places]
  none_found other hother := by
    rcases List.mem_cons.mp hother with rfl | hother
    · exact hstatus
    · exact h.none_found other hother

/-- The entry of a lookup where metadata was found. -/
def foundEntry (json : Json) (lookup : Lookup) (records : List TxtRecord) : Attempt :=
  metadataAttemptFromParsed lookup (parseTxtRecords json records) records

theorem found_entry_status {lookup : Lookup} {records : List TxtRecord} :
    (foundEntry json lookup records).status = .found ↔
      (parseTxtRecords json records).status = .found :=
  parsed_entry_found lookup

/-- One lookup asks for its name, unless it is the name itself, and its entry stands at it. -/
theorem lookup_records_run {lookup : Lookup} {trace next : Trace}
    {outcome : Except Attempt (List TxtRecord)}
    (h : lookupRecords source name dnsResult lookup trace = (.ok outcome, next)) :
    next = trace ++ txtQueries name [lookup] ∧
      (entryOf json lookup outcome).place = lookup.place := by
  unfold lookupRecords at h
  by_cases hapex : lookup.queryName = name
  · have hqueries : txtQueries name [lookup] = [] := by simp [txtQueries, hapex]
    rw [hqueries, List.append_nil]
    rw [if_pos hapex] at h
    generalize (if dnsResult.records.TXT.isEmpty = true then txtLookupError dnsResult else none) =
      error at h
    cases error with
    | none =>
        cases h
        exact ⟨rfl, rfl⟩
    | some error =>
        cases h
        exact ⟨rfl, rfl⟩
  · have hqueries : txtQueries name [lookup] = [.resolveTxt lookup.queryName] := by
      simp [txtQueries, hapex]
    rw [hqueries]
    rw [if_neg hapex] at h
    cases hsource : source.resolveTxt with
    | none =>
        rw [hsource] at h
        cases h
    | some resolveTxt =>
        rw [hsource] at h
        obtain ⟨response, between, hcall, hresponse⟩ := Run.bind_eq_ok h
        obtain rfl : trace ++ [.resolveTxt lookup.queryName] = between := congrArg Prod.snd hcall
        dsimp only at hresponse
        split_ifs at hresponse
        · cases hresponse
          exact ⟨rfl, rfl⟩
        · cases hresponse
          exact ⟨rfl, rfl⟩

/-- How a search ends: at the first lookup with metadata, or behind all of them. -/
inductive SearchEnd (json : Json) (lookups : List Lookup) : List Lookup → List Attempt →
    Option ParseResult → Option Lookup → Prop
  | exhausted (entries : List Attempt) (failed : FailedAt lookups entries) :
      SearchEnd json lookups lookups entries none none
  | found (before : List Lookup) (lookup : Lookup) (rest : List Lookup) (entries : List Attempt)
      (records : List TxtRecord) (split : lookups = before ++ lookup :: rest)
      (failed : FailedAt before entries) (status : (parseTxtRecords json records).status = .found) :
      SearchEnd json lookups (before ++ [lookup]) (entries ++ [foundEntry json lookup records])
        (some (parseTxtRecords json records)) (some lookup)

theorem SearchEnd.cons {lookups asked : List Lookup} {entries : List Attempt}
    {parsed : Option ParseResult} {stop : Option Lookup} {lookup : Lookup} {entry : Attempt}
    (h : SearchEnd json lookups asked entries parsed stop) (hplace : entry.place = lookup.place)
    (hstatus : entry.status ≠ .found) :
    SearchEnd json (lookup :: lookups) (lookup :: asked) (entry :: entries) parsed stop := by
  cases h with
  | exhausted entries failed => exact .exhausted _ (failed.cons hplace hstatus)
  | found before last rest entries records split failed status =>
      exact .found (lookup :: before) last rest (entry :: entries) records (by rw [split]; rfl)
        (failed.cons hplace hstatus) status

/-- The loop asks the lookups in order up to the first with metadata and adds one entry for each. -/
theorem find_loop_run {lookups : List Lookup} {attempts : List Attempt} {trace last : Trace}
    {result : MetadataResult}
    (h : findLoop json source name dnsResult lookups attempts trace = (.ok result, last)) :
    ∃ asked entries, SearchEnd json lookups asked entries result.parsed result.lookup ∧
      result.attempts = attempts ++ entries ∧ last = trace ++ txtQueries name asked := by
  induction lookups generalizing attempts trace with
  | nil =>
      cases h
      exact ⟨[], [], .exhausted [] ⟨rfl, fun entry hentry => absurd hentry List.not_mem_nil⟩,
        (List.append_nil _).symm, (List.append_nil _).symm⟩
  | cons lookup rest ih =>
      rw [findLoop] at h
      obtain ⟨outcome, next, hrecords, hnext⟩ := Run.bind_eq_ok h
      obtain ⟨hqueries, hplace⟩ := @lookup_records_run json _ _ _ _ _ _ _ hrecords
      cases outcome with
      | error attempt =>
          obtain ⟨asked, entries, hend, hattempts, hlast⟩ := ih hnext
          refine ⟨lookup :: asked, attempt :: entries, hend.cons hplace ?_, ?_, ?_⟩
          · rw [(failed_entry hrecords).2]
            decide
          · rw [hattempts, List.append_assoc]
            rfl
          · rw [hlast, hqueries, List.append_assoc, ← txt_queries_cons]
      | ok records =>
          dsimp only at hnext
          by_cases hparsed : (parseTxtRecords json records).status = .found
          · rw [if_pos hparsed] at hnext
            cases hnext
            exact ⟨[lookup], [foundEntry json lookup records],
              .found [] lookup rest [] records rfl
                ⟨rfl, fun entry hentry => absurd hentry List.not_mem_nil⟩ hparsed, rfl, hqueries⟩
          · rw [if_neg hparsed] at hnext
            obtain ⟨asked, entries, hend, hattempts, hlast⟩ := ih hnext
            refine ⟨lookup :: asked, foundEntry json lookup records :: entries,
              hend.cons hplace (mt found_entry_status.mp hparsed), ?_, ?_⟩
            · rw [hattempts, List.append_assoc]
              rfl
            · rw [hlast, hqueries, List.append_assoc, ← txt_queries_cons]

/-! ## Results -/

theorem resolve_name_run {trace next : Trace} {dnsResult : DnsResult}
    (h : resolveName source name trace = (.ok dnsResult, next)) :
    next = trace ++ nameEvents source name := by
  unfold resolveName at h
  unfold nameEvents
  cases hname : source.resolveName with
  | some resolveName =>
      rw [hname] at h
      obtain ⟨answer, between, hcall, hreturn⟩ := Run.bind_eq_ok h
      cases hreturn
      exact (congrArg Prod.snd hcall).symm
  | none =>
      rw [hname] at h
      cases htxt : source.resolveTxt with
      | some resolveTxt =>
          rw [htxt] at h
          obtain ⟨answer, between, hcall, hreturn⟩ := Run.bind_eq_ok h
          cases hreturn
          exact (congrArg Prod.snd hcall).symm
      | none =>
          rw [htxt] at h
          obtain ⟨answer, between, hcall, hreturn⟩ := Run.bind_eq_ok h
          cases hreturn
          cases hcall
          exact (List.append_nil _).symm

/-- What a result with metadata says: its last entry is the only one where metadata was found, and
the members are those of this entry. -/
structure ReportsFound (json : Json) (result : ResolveResult) : Prop where
  entry : ∃ before attempt records identity,
    result.attempts = before ++ [attempt] ∧ (∀ earlier ∈ before, earlier.status ≠ .found) ∧
      attempt.status = .found ∧ attempt.records = some records ∧
      result.queryName = some attempt.queryName ∧ result.location = some attempt.location ∧
      (parseTxtRecords json records).identity = some identity ∧
      result.metadata = some identity ∧ result.identity = some (identity, result.name) ∧
      result.record = (parseTxtRecords json records).record
  reason : result.reason = none

/-- What a result without metadata says. -/
structure ReportsNone (result : ResolveResult) : Prop where
  entries : ∀ attempt ∈ result.attempts, attempt.status ≠ .found
  reason : result.reason = some (finalReasonFromAttempts result.attempts)
  metadata : result.metadata = none
  queryName : result.queryName = none
  agentReady : result.agentReady = false
  capabilities : result.capabilities = []
  protocols : result.protocols = []

theorem SearchEnd.places {lookups asked : List Lookup} {entries : List Attempt}
    {parsed : Option ParseResult} {stop : Option Lookup}
    (h : SearchEnd json lookups asked entries parsed stop) :
    asked <+: lookups ∧ entries.map Attempt.place = asked.map Lookup.place := by
  cases h with
  | exhausted entries failed => exact ⟨List.prefix_refl _, failed.places⟩
  | found before lookup rest entries records split failed status =>
      refine ⟨⟨rest, by rw [split, List.append_assoc]; rfl⟩, ?_⟩
      rw [List.map_append, List.map_append, failed.places]
      rfl

/-- The result of a search that found metadata. -/
theorem reports_found {normalizedName : JSString} {search : MetadataResult} {skill : SkillResult}
    {before : List Lookup} {lookup : Lookup} {entries : List Attempt}
    {records : List TxtRecord} (failed : FailedAt before entries)
    (status : (parseTxtRecords json records).status = .found)
    (hparsed : search.parsed = some (parseTxtRecords json records))
    (hlookup : search.lookup = some lookup)
    (hattempts : search.attempts = entries ++ [foundEntry json lookup records]) :
    (buildResult normalizedName dnsResult search skill).status = .found ∧
      ReportsFound json (buildResult normalizedName dnsResult search skill) := by
  obtain ⟨identity, hidentity⟩ :=
    Option.isSome_iff_exists.mp (parse_found_iff_identity.mp status)
  have hmetadata : search.parsed.bind ParseResult.identity = some identity := by
    rw [hparsed]
    exact hidentity
  refine ⟨?_, ⟨entries, foundEntry json lookup records, records, identity, hattempts,
    failed.none_found, found_entry_status.mpr status, rfl, ?_, ?_, hidentity, hmetadata, ?_, ?_⟩,
    ?_⟩
  · simp [buildResult, hmetadata]
  · simp [buildResult, hmetadata, hlookup, foundEntry, metadataAttemptFromParsed]
  · simp [buildResult, hmetadata, hlookup, foundEntry, metadataAttemptFromParsed]
  · simp [buildResult, hmetadata]
  · simp [buildResult, hparsed, hidentity]
  · simp [buildResult, hmetadata]

theorem reports_none {normalizedName : JSString} {search : MetadataResult} {skill : SkillResult}
    {lookups : List Lookup} (failed : FailedAt lookups search.attempts)
    (hparsed : search.parsed = none) :
    (buildResult normalizedName dnsResult search skill).status = .notFound ∧
      ReportsNone (buildResult normalizedName dnsResult search skill) := by
  refine ⟨?_, failed.none_found, ?_, ?_, ?_, ?_, ?_, ?_⟩ <;> simp [buildResult, hparsed]

/-- Whatever the source is and answers: a run that returns asks for the name, then for the TXT
records of the lookup names in order up to the first with metadata, and makes its requests last.
The result has one entry for each lookup name that was reached, and reports the metadata of the last
one or a reason why there is none. -/
theorem resolve_search (json : Json) (platform : Platform) (options : ResolverOptions)
    (input : JSString) (trace : Trace) {result : ResolveResult} {last : Trace}
    (h : resolve json platform options input trace = (.ok result, last)) :
    ∃ lookups asked requests,
      buildLookupNames result.name options.lookupLocations = .ok lookups ∧ asked <+: lookups ∧
      last = trace ++ nameEvents options.source result.name ++ txtQueries result.name asked ++
        requests ∧
      (∀ event ∈ requests, (requestedUrl event).isSome) ∧
      result.attempts.map Attempt.place = asked.map Lookup.place ∧
      (result.status = .found ∧ ReportsFound json result ∨
        result.status = .notFound ∧ ReportsNone result ∧ asked = lookups ∧
          (options.forceSkillDiscovery = false → requests = [])) := by
  obtain ⟨normalizedName, dnsResult, search, skill, next, hlookup, rfl⟩ := resolve_returns h
  obtain ⟨requests, hadded, hrequests⟩ := resolve_events platform hlookup
  rw [h] at hadded
  obtain ⟨-, lookups, second, hlookups, hname, hloop⟩ := lookup_metadata_returns hlookup
  obtain ⟨asked, entries, hend, hattempts, hthird⟩ := find_loop_run hloop
  obtain ⟨hasked, hplaces⟩ := hend.places
  rw [List.nil_append] at hattempts
  have hlast : last = next ++ requests := hadded
  rw [hthird, resolve_name_run hname] at hlast
  refine ⟨lookups, asked, requests, hlookups, hasked, hlast, hrequests, ?_, ?_⟩
  · rw [← hplaces, ← hattempts]
    rfl
  · generalize hparsed : search.parsed = parsed at hend
    generalize hstop : search.lookup = stop at hend
    cases hend with
    | found before lookup rest entries records split failed status =>
        exact Or.inl (reports_found failed status hparsed hstop hattempts)
    | exhausted entries failed =>
        rw [← hattempts] at failed
        obtain ⟨hstatus, hreport⟩ := @reports_none dnsResult normalizedName search skill _ failed
          hparsed
        refine Or.inr ⟨hstatus, hreport, rfl, fun hforce => ?_⟩
        have hrun := resolve_without_discovery platform hlookup hparsed hforce
        rw [h] at hrun
        have hsame : last = next := congrArg Prod.snd hrun
        exact List.self_eq_append_right.mp (hsame.symm.trans hadded)

theorem resolve_search_example :
    ∃ result last asked requests,
      resolve .rejecting .ascii (optionsOver (txtOnlyResolver (text "other") [])) (text "Example.")
          [] = (.ok result, last) ∧
        last = [] ++ [.resolveName (text "example")] ++ txtQueries (text "example") asked ++
          requests ∧
        result.attempts.map Attempt.place = asked.map Lookup.place := by
  obtain ⟨result, last, hrun, hname⟩ : ∃ result last,
      resolve .rejecting .ascii (optionsOver (txtOnlyResolver (text "other") [])) (text "Example.")
          [] = (.ok result, last) ∧ result.name = text "example" := ⟨_, _, rfl, rfl⟩
  obtain ⟨lookups, asked, requests, -, -, hlast, -, hplaces, -⟩ :=
    resolve_search .rejecting .ascii (optionsOver (txtOnlyResolver (text "other") []))
      (text "Example.") [] hrun
  rw [hname] at hlast
  exact ⟨result, last, asked, requests, hrun, hlast, hplaces⟩

end AgentResolver
