import AgentResolver.Sequence.Search
import AgentResolver.Metadata.ParseLemmas
import AgentResolver.Resolver

/-!
# The metadata search over DNS

What the lookup stage of `resolve` does over a `DnsHandshakeSource`, as a function of the TXT
outcomes alone. The apex answer has travelled through the combined lookup of `resolveName` and
`normalizeDnsResult`, a sub-location is asked directly; `lookup_records_dns` says that the two ways
make the same attempt. `find_loop_dns` is the run of the search loop and `lookup_metadata_dns` the
run of the stage.
-/

namespace AgentResolver

open JavaScript
open Interaction Sequence

/-- The parse of a TXT outcome in which `parseTxtRecords` finds metadata. -/
def foundIn (json : Json) : DnsOutcome TxtRecord → Option ParseResult
  | .records list =>
      let parsed := parseTxtRecords json list
      if parsed.status = .found then some parsed else none
  | .rejected _ _ => none

/-- The status of the attempt that a TXT outcome leads to. -/
def statusOf (json : Json) : DnsOutcome TxtRecord → MetadataStatus
  | .records list => if list.isEmpty then .noRecords else (parseTxtRecords json list).status
  | .rejected code _ => if isNoRecord code then .noRecords else .lookupError

/-! ## Lookups over any source -/

/-- What becomes of the combined answer at the apex: an error counts where there are no records. -/
def apexLookup (dnsResult : DnsResult) (lookup : Lookup) : Except Attempt (List TxtRecord) :=
  match if dnsResult.records.TXT.isEmpty then txtLookupError dnsResult else none with
  | some (code, message) => .error (lookupErrorAttempt lookup code message (some []))
  | none => .ok dnsResult.records.TXT

/-- What becomes of a TXT answer at a sub-location: the status comes first. -/
def subLookup (answer : TxtAnswer) (lookup : Lookup) : Except Attempt (List TxtRecord) :=
  if isLookupErrorStatus answer.status then
    .error (lookupErrorAttempt lookup answer.code answer.message none)
  else .ok (answer.records.getD [])

theorem lookup_records_apex (source : Source) {name : JSString} (dnsResult : DnsResult)
    {lookup : Lookup} (hlookup : lookup.queryName = name) (trace : Trace) :
    lookupRecords source name dnsResult lookup trace =
      (.ok (apexLookup dnsResult lookup), trace) := by
  rw [lookupRecords, if_pos hlookup, apexLookup]
  cases (if dnsResult.records.TXT.isEmpty = true then txtLookupError dnsResult else none) with
  | none => rfl
  | some error => rfl

theorem lookup_records_sub {source : Source} {name : JSString} (dnsResult : DnsResult)
    {lookup : Lookup} (hlookup : lookup.queryName ≠ name)
    {resolveTxt : Trace → JSString → Except JSError TxtAnswer}
    (hsource : source.resolveTxt = some resolveTxt) {trace : Trace} {answer : TxtAnswer}
    (hanswer : resolveTxt trace lookup.queryName = .ok answer) :
    lookupRecords source name dnsResult lookup trace =
      (.ok (subLookup answer lookup), trace ++ [.resolveTxt lookup.queryName]) := by
  have hcall : Run.call (.resolveTxt lookup.queryName)
      (fun trace => resolveTxt trace lookup.queryName) trace =
        (.ok answer, trace ++ [.resolveTxt lookup.queryName]) := by
    rw [Run.call_apply, hanswer]
  rw [lookupRecords, if_neg hlookup, subLookup]
  simp only [hsource]
  rw [Run.bind_ok hcall]
  split
  · rfl
  · rfl

/-! ## The answer at the apex -/

variable (dns : DnsResolver) (servers : Option (List JSString))

/-- What `resolveName` of the resolver returns over the DNS source. -/
def apexResult (name : JSString) : DnsResult :=
  normalizeDnsResult (dns.resolveName servers name) (dns.source servers)

theorem resolve_name_dns (name : JSString) (trace : Trace) :
    resolveName (dns.source servers) name trace =
      (.ok (apexResult dns servers name), trace ++ [.resolveName name]) := rfl

theorem issue_of_address_not_txt {α : Type} {recordType : JSString} {answer : LookupAnswer α}
    {issue : LookupIssue} (htype : recordType = text "A" ∨ recordType = text "AAAA")
    (h : issue ∈ DnsResolver.issueOf recordType answer) :
    (isFalsy issue.recordType || issue.recordType = some (text "TXT")) = false := by
  unfold DnsResolver.issueOf at h
  split at h
  · obtain rfl := List.mem_singleton.mp h
    rcases htype with rfl | rfl <;> simp [isFalsy, text, unit]
  · cases h

/-- The only error that can count as a TXT error is the one of the TXT lookup. -/
theorem find_txt_issue (name : JSString) :
    (apexResult dns servers name).errors.find? (fun error =>
        isFalsy error.recordType || error.recordType = some (text "TXT")) =
      (DnsResolver.issueOf (text "TXT") (dns.resolveTxtRecords name)).head? := by
  have ha : (DnsResolver.issueOf (text "A") (dns.resolveA name)).find? (fun error =>
      isFalsy error.recordType || error.recordType = some (text "TXT")) = none :=
    List.find?_eq_none.mpr fun issue h => by simp [issue_of_address_not_txt (Or.inl rfl) h]
  have haaaa : (DnsResolver.issueOf (text "AAAA") (dns.resolveAAAA name)).find? (fun error =>
      isFalsy error.recordType || error.recordType = some (text "TXT")) = none :=
    List.find?_eq_none.mpr fun issue h => by simp [issue_of_address_not_txt (Or.inr rfl) h]
  have herrors : (apexResult dns servers name).errors =
      DnsResolver.issueOf (text "A") (dns.resolveA name) ++
        DnsResolver.issueOf (text "AAAA") (dns.resolveAAAA name) ++
        DnsResolver.issueOf (text "TXT") (dns.resolveTxtRecords name) := rfl
  rw [herrors, List.find?_append, List.find?_append, ha, haaaa, Option.none_or, Option.none_or]
  unfold DnsResolver.issueOf
  split <;> rfl

/-- The TXT error recovered from the combined answer is that of the TXT lookup, whatever the
address lookups returned. -/
theorem txt_lookup_error_dns (name : JSString) :
    txtLookupError (apexResult dns servers name) =
      match dns.resolveTxt name with
      | .records _ => none
      | .rejected code message =>
          if isNoRecord code then none
          else some (some (code.getD (text "TXT_LOOKUP_ERROR")), some message) := by
  have hfind := find_txt_issue dns servers name
  have hstatus : (apexResult dns servers name).recordStatus.TXT =
      (dns.resolveTxtRecords name).status := rfl
  have hexplicit : (apexResult dns servers name).hasExplicitRecordStatus = true := rfl
  unfold txtLookupError
  simp only [hfind, hstatus, hexplicit]
  unfold DnsResolver.resolveTxtRecords
  cases dns.resolveTxt name with
  | records list => cases list <;> rfl
  | rejected code message =>
      unfold lookupAnswer
      by_cases hcode : isNoRecord code
      · simp only [hcode, if_true]
        rfl
      · simp only [hcode, if_false, Bool.false_eq_true]
        rfl

/-! ## One lookup -/

/-- The attempt at a lookup name, as a function of the TXT outcome there. -/
def attemptOf (json : Json) (name : JSString) (lookup : Lookup) :
    DnsOutcome TxtRecord → Attempt
  | .records list => metadataAttemptFromParsed lookup (parseTxtRecords json list) list
  | .rejected code message =>
      if isNoRecord code then metadataAttemptFromParsed lookup (parseTxtRecords json []) []
      else
        lookupErrorAttempt lookup (some (code.getD (text "TXT_LOOKUP_ERROR"))) (some message)
          (if lookup.queryName = name then some [] else none)

theorem attempt_of_names (json : Json) (name : JSString) (lookup : Lookup)
    (outcome : DnsOutcome TxtRecord) :
    (attemptOf json name lookup outcome).location = lookup.location ∧
      (attemptOf json name lookup outcome).queryName = lookup.queryName ∧
      (attemptOf json name lookup outcome).status = statusOf json outcome := by
  cases outcome with
  | records list => exact ⟨rfl, rfl, rfl⟩
  | rejected code message =>
      simp only [attemptOf, statusOf]
      split
      · exact ⟨rfl, rfl, rfl⟩
      · exact ⟨rfl, rfl, rfl⟩

/-- The events of a lookup: the apex has been asked before. -/
def lookupEvents (name : JSString) (lookup : Lookup) : Trace :=
  if lookup.queryName = name then [] else [.resolveTxt lookup.queryName]

/-- The records to parse at a lookup name, or the attempt of a failed lookup. -/
def recordsOf (json : Json) (name : JSString) (lookup : Lookup) :
    DnsOutcome TxtRecord → Except Attempt (List TxtRecord)
  | .records list => .ok list
  | .rejected code message =>
      if isNoRecord code then .ok []
      else .error (attemptOf json name lookup (.rejected code message))

theorem apex_lookup_dns (json : Json) {name : JSString} {lookup : Lookup}
    (hname : lookup.queryName = name) :
    apexLookup (apexResult dns servers name) lookup =
      recordsOf json name lookup (dns.resolveTxt name) := by
  have hrecords : (apexResult dns servers name).records.TXT =
      (dns.resolveTxtRecords name).records := rfl
  simp only [apexLookup, hrecords, txt_lookup_error_dns, DnsResolver.resolveTxtRecords]
  cases dns.resolveTxt name with
  | records list => simp [lookupAnswer, recordsOf]
  | rejected code message =>
      by_cases hcode : isNoRecord code
      · simp [lookupAnswer, recordsOf, hcode]
      · simp [lookupAnswer, recordsOf, attemptOf, hcode, hname]

theorem sub_lookup_dns (json : Json) {name : JSString} {lookup : Lookup}
    (hname : lookup.queryName ≠ name) :
    subLookup ⟨(dns.resolveTxtRecords lookup.queryName).status,
        some (dns.resolveTxtRecords lookup.queryName).records,
        (dns.resolveTxtRecords lookup.queryName).code,
        (dns.resolveTxtRecords lookup.queryName).message⟩ lookup =
      recordsOf json name lookup (dns.resolveTxt lookup.queryName) := by
  rw [subLookup, DnsResolver.resolveTxtRecords]
  cases dns.resolveTxt lookup.queryName with
  | records list =>
      cases list <;> simp [lookupAnswer, recordsOf, isLookupErrorStatus, text, unit]
  | rejected code message =>
      by_cases hcode : isNoRecord code
      · simp [lookupAnswer, recordsOf, hcode, isLookupErrorStatus, text, unit]
      · simp [lookupAnswer, recordsOf, hcode, attemptOf, isLookupErrorStatus, hname]

/-- A lookup at the apex and a lookup elsewhere lead to the same records or failure. -/
theorem lookup_records_dns (json : Json) (name : JSString) (lookup : Lookup) (trace : Trace) :
    lookupRecords (dns.source servers) name (apexResult dns servers name) lookup trace =
      (.ok (recordsOf json name lookup (dns.resolveTxt lookup.queryName)),
        trace ++ lookupEvents name lookup) := by
  unfold lookupEvents
  by_cases hname : lookup.queryName = name
  · rw [lookup_records_apex _ _ hname, apex_lookup_dns dns servers json hname, hname, if_pos rfl,
      List.append_nil]
  · rw [lookup_records_sub _ hname rfl rfl, sub_lookup_dns dns json hname, if_neg hname]

/-! ## The search -/

/-- `parseTxtRecords` finds metadata at the lookup name. -/
def foundAt (json : Json) (lookup : Lookup) : Bool :=
  (foundIn json (dns.resolveTxt lookup.queryName)).isSome

/-- The result of the search, as a function of the TXT outcomes. -/
def searchResult (json : Json) (name : JSString) (lookups : List Lookup) : MetadataResult where
  parsed := lookups.findSome? fun lookup => foundIn json (dns.resolveTxt lookup.queryName)
  lookup := lookups.find? (foundAt dns json)
  attempts := (visited (foundAt dns json) lookups).map fun lookup =>
    attemptOf json name lookup (dns.resolveTxt lookup.queryName)

/-- The TXT queries of the search. -/
def searchEvents (json : Json) (name : JSString) (lookups : List Lookup) : Trace :=
  (visited (foundAt dns json) lookups).flatMap (lookupEvents name)

theorem search_result_cons_found {json : Json} {name : JSString} {lookup : Lookup}
    {rest : List Lookup} {parsed : ParseResult}
    (h : foundIn json (dns.resolveTxt lookup.queryName) = some parsed) :
    searchResult dns json name (lookup :: rest) =
      ⟨some parsed, some lookup,
        [attemptOf json name lookup (dns.resolveTxt lookup.queryName)]⟩ := by
  have hfound : foundAt dns json lookup := by simp [foundAt, h]
  simp [searchResult, h, hfound, visited_cons_pos]

theorem search_result_cons_none {json : Json} {name : JSString} {lookup : Lookup}
    {rest : List Lookup} (h : foundIn json (dns.resolveTxt lookup.queryName) = none) :
    searchResult dns json name (lookup :: rest) =
      { searchResult dns json name rest with
        attempts := attemptOf json name lookup (dns.resolveTxt lookup.queryName) ::
          (searchResult dns json name rest).attempts } := by
  have hfound : foundAt dns json lookup = false := by simp [foundAt, h]
  simp [searchResult, h, hfound, visited_cons_neg]

theorem search_events_cons_found {json : Json} {name : JSString} {lookup : Lookup}
    {rest : List Lookup} (h : foundAt dns json lookup) :
    searchEvents dns json name (lookup :: rest) = lookupEvents name lookup := by
  simp [searchEvents, visited_cons_pos h]

theorem search_events_cons_none {json : Json} {name : JSString} {lookup : Lookup}
    {rest : List Lookup} (h : foundAt dns json lookup = false) :
    searchEvents dns json name (lookup :: rest) =
      lookupEvents name lookup ++ searchEvents dns json name rest := by
  simp [searchEvents, visited_cons_neg h]

/-- What the loop does with the records of a lookup. -/
theorem found_in_records {json : Json} {list : List TxtRecord}
    (h : (parseTxtRecords json list).status = .found) :
    foundIn json (.records list) = some (parseTxtRecords json list) :=
  if_pos h

theorem found_in_records_none {json : Json} {list : List TxtRecord}
    (h : (parseTxtRecords json list).status ≠ .found) : foundIn json (.records list) = none :=
  if_neg h

/-- A parse that is found is one of a record list. -/
theorem found_in_eq_some {json : Json} {outcome : DnsOutcome TxtRecord} {parsed : ParseResult}
    (h : foundIn json outcome = some parsed) :
    ∃ list, outcome = .records list ∧ parsed = parseTxtRecords json list ∧
      parsed.status = .found := by
  cases outcome with
  | rejected code message => cases h
  | records list =>
      by_cases hfound : (parseTxtRecords json list).status = .found
      · rw [found_in_records hfound] at h
        cases h
        exact ⟨list, rfl, rfl, hfound⟩
      · rw [found_in_records_none hfound] at h
        cases h

/-- No metadata is found in an empty list. -/
theorem parse_nil_status (json : Json) : (parseTxtRecords json []).status ≠ .found := by
  simp [parseTxtRecords, parseLoop, finishParse, parseHeadlessProfileRecords, emptyParseResult]

/-- The run of the search loop. -/
theorem find_loop_dns (json : Json) (name : JSString) (lookups : List Lookup)
    (attempts : List Attempt) (trace : Trace) :
    findLoop json (dns.source servers) name (apexResult dns servers name) lookups attempts trace =
      (.ok { searchResult dns json name lookups with
          attempts := attempts ++ (searchResult dns json name lookups).attempts },
        trace ++ searchEvents dns json name lookups) := by
  induction lookups generalizing attempts trace with
  | nil => simp [findLoop, searchResult, searchEvents]
  | cons lookup rest ih =>
      rw [findLoop, Run.bind_ok (lookup_records_dns dns servers json name lookup trace)]
      cases hout : dns.resolveTxt lookup.queryName with
      | rejected code message =>
          have hnone : foundIn json (dns.resolveTxt lookup.queryName) = none := by rw [hout]; rfl
          have hfound : foundAt dns json lookup = false := by simp [foundAt, hnone]
          rw [search_result_cons_none dns hnone, search_events_cons_none dns hfound, hout]
          by_cases hcode : isNoRecord code
          · simp only [recordsOf, hcode, if_true, parse_nil_status, if_false, attemptOf, ih,
              List.append_assoc, List.cons_append, List.nil_append]
          · simp only [recordsOf, hcode, if_false, Bool.false_eq_true, ih, List.append_assoc,
              List.cons_append, List.nil_append]
      | records list =>
          by_cases hparsed : (parseTxtRecords json list).status = .found
          · have hsome := found_in_records hparsed
            rw [← hout] at hsome
            have hfound : foundAt dns json lookup := by simp [foundAt, hsome]
            rw [search_result_cons_found dns hsome, search_events_cons_found dns hfound, hout]
            simp [recordsOf, hparsed, attemptOf]
          · have hnone := found_in_records_none hparsed
            rw [← hout] at hnone
            have hfound : foundAt dns json lookup = false := by simp [foundAt, hnone]
            rw [search_result_cons_none dns hnone, search_events_cons_none dns hfound, hout]
            simp only [recordsOf, hparsed, if_false, attemptOf, ih, List.append_assoc,
              List.cons_append, List.nil_append]

/-- The run of the lookup stage of `resolve`. -/
theorem lookup_metadata_dns (json : Json) {options : ResolverOptions} {input name : JSString}
    {lookups : List Lookup} (hsource : options.source = dns.source servers)
    (hname : normalizeHandshakeName input = .ok name)
    (hlookups : buildLookupNames name options.lookupLocations = .ok lookups) (trace : Trace) :
    lookupMetadata json options input trace =
      (.ok (name, apexResult dns servers name, searchResult dns json name lookups),
        trace ++ .resolveName name :: searchEvents dns json name lookups) := by
  have hfind : findMetadata json options.source name (apexResult dns servers name)
      options.lookupLocations (trace ++ [.resolveName name]) =
        (.ok (searchResult dns json name lookups),
          (trace ++ [.resolveName name]) ++ searchEvents dns json name lookups) := by
    rw [findMetadata, hsource, hlookups]
    exact find_loop_dns dns servers json name lookups [] _
  have happly : resolveName options.source name trace =
      (.ok (apexResult dns servers name), trace ++ [.resolveName name]) := by
    rw [hsource]
    exact resolve_name_dns dns servers name trace
  rw [lookupMetadata, hname, Run.bind_ok (Run.lift_apply _ _), Run.bind_ok happly,
    Run.bind_ok hfind]
  simp

end AgentResolver
