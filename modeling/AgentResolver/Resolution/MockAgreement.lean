import AgentResolver.Interaction.Agreement
import AgentResolver.Resolution.DnsResolution
import AgentResolver.Upstream.MockSource

/-!
# The mock source stands for DNS

Two sources are interchangeable under the resolver when their combined answers have the same
addresses and every lookup leads to the same records or failure: then the runs of `resolve` over
them agree (`resolve_interchangeable`). `mock_lookup_records` and `lookup_records_dns` show this of
the mock source and a DNS source whose resolver answers from the same object, although the one
reports no `recordStatus` and tags no error.
-/

namespace AgentResolver

open JavaScript
open Interaction

/-! ## Interchangeable sources -/

/-- Two sources that lead the resolver the same way. `related name` relates what `resolveName`
returns for the name over the one to what it returns over the other. -/
structure Interchangeable (source source' : Source)
    (related : JSString → DnsResult → DnsResult → Prop) : Prop where
  resolveName : ∀ name,
    Run.AgreeOn (related name) (resolveName source name) (resolveName source' name)
  addresses : ∀ {name dnsResult dnsResult'}, related name dnsResult dnsResult' →
    dnsResult.addresses = dnsResult'.addresses
  lookups : ∀ {name dnsResult dnsResult'}, related name dnsResult dnsResult' → ∀ lookup,
    Run.AgreeOn Eq (lookupRecords source name dnsResult lookup)
      (lookupRecords source' name dnsResult' lookup)

section

variable {source source' : Source} {related : JSString → DnsResult → DnsResult → Prop}
  {name : JSString} {dnsResult dnsResult' : DnsResult}

/-- The search loops agree. -/
theorem find_loop_interchangeable (json : Json) (h : Interchangeable source source' related)
    (hrelated : related name dnsResult dnsResult') (lookups : List Lookup)
    (attempts : List Attempt) :
    Run.AgreeOn Eq (findLoop json source name dnsResult lookups attempts)
      (findLoop json source' name dnsResult' lookups attempts) := by
  induction lookups generalizing attempts with
  | nil => exact Run.agree_self _
  | cons lookup rest ih =>
      rw [findLoop, findLoop]
      refine Run.agree_bind (h.lookups hrelated lookup) ?_
      rintro outcome _ rfl
      cases outcome with
      | error attempt => exact ih _
      | ok records =>
          dsimp only
          split
          · exact Run.agree_self _
          · exact ih _

/-- The two results are built from the same metadata and the same SKILL.md discovery. -/
def BuiltAlike (related : JSString → DnsResult → DnsResult → Prop)
    (left right : ResolveResult) : Prop :=
  ∃ name dnsResult dnsResult' metadataResult skill, related name dnsResult dnsResult' ∧
    left = buildResult name dnsResult metadataResult skill ∧
    right = buildResult name dnsResult' metadataResult skill

/-- The runs of `resolve` over interchangeable sources agree. -/
theorem resolve_interchangeable (json : Json) (platform : Platform)
    (h : Interchangeable source source' related) (options : ResolverOptions) (input : JSString) :
    Run.AgreeOn (BuiltAlike related)
      (resolve json platform { options with source := source } input)
      (resolve json platform { options with source := source' } input) := by
  -- The three results of the lookup stage agree but for the combined answer.
  have hlookup : Run.AgreeOn
      (fun found found' => related found.1 found.2.1 found'.2.1 ∧ found.1 = found'.1 ∧
        found.2.2 = found'.2.2)
      (lookupMetadata json { options with source := source } input)
      (lookupMetadata json { options with source := source' } input) := by
    refine Run.agree_bind (Run.agree_self _) ?_
    rintro name _ rfl
    refine Run.agree_bind (h.resolveName name) fun dnsResult dnsResult' hrelated => ?_
    have hfind : Run.AgreeOn Eq
        (findMetadata json source name dnsResult options.lookupLocations)
        (findMetadata json source' name dnsResult' options.lookupLocations) := by
      refine Run.agree_bind (Run.agree_self _) ?_
      rintro lookups _ rfl
      exact find_loop_interchangeable json h hrelated lookups []
    refine Run.agree_bind hfind ?_
    rintro metadataResult _ rfl
    exact Run.agree_pure ⟨hrelated, rfl, rfl⟩
  refine Run.agree_bind hlookup ?_
  rintro ⟨name, dnsResult, metadataResult⟩ ⟨_, dnsResult', _⟩ ⟨hrelated, rfl, rfl⟩
  dsimp only at hrelated ⊢
  have haddresses (metadata : Option Identity) :
      effectiveAddresses dnsResult metadata = effectiveAddresses dnsResult' metadata := by
    rw [effectiveAddresses, effectiveAddresses, h.addresses hrelated]
  -- The addresses are all that SKILL.md discovery takes from the DNS result.
  rw [haddresses]
  refine Run.agree_bind (Run.agree_self _) ?_
  rintro skill _ rfl
  exact Run.agree_pure ⟨name, dnsResult, dnsResult', metadataResult, skill, hrelated, rfl, rfl⟩

end

/-! ## One object behind both sources -/

/-- The DNS outcome for a list of records: an empty list may also be a rejection. -/
def IsAnswer {α : Type} (list : List α) : DnsOutcome α → Prop
  | .records found => found = list
  | .rejected code _ => list = [] ∧ (code = some (text "ENODATA") ∨ code = some (text "ENOTFOUND"))

/-- The three lookups of a name answer from its value; at an `Error` every one rejects with it. -/
def AnswersAt (dns : DnsResolver) (name : JSString) : Option MockValue → Prop
  | some (.failure code message) =>
      dns.resolve4 name = .rejected code message ∧ dns.resolve6 name = .rejected code message ∧
        dns.resolveTxt name = .rejected code message
  | value =>
      IsAnswer (normalizeValue value).A (dns.resolve4 name) ∧
        IsAnswer (normalizeValue value).AAAA (dns.resolve6 name) ∧
        IsAnswer (normalizeValue value).TXT (dns.resolveTxt name)

/-- The DNS resolver answers from the object, and the errors in it have a code that does not stand
for missing records. -/
structure AnswersFrom (dns : DnsResolver) (recordsByName : Properties MockValue) : Prop where
  answers : ∀ name, AnswersAt dns name (getProperty recordsByName name)
  codes : ∀ name code message, getProperty recordsByName name = some (.failure code message) →
    ∃ c, code = some c ∧ c ∉ noRecordCodes

/-- The value is a record set and not an `Error`. -/
def IsRecordSet (value : Option MockValue) : Prop :=
  ∀ code message, value ≠ some (.failure code message)

theorem AnswersAt.records {dns : DnsResolver} {name : JSString} {value : Option MockValue}
    (h : AnswersAt dns name value) (hvalue : IsRecordSet value) :
    IsAnswer (normalizeValue value).A (dns.resolve4 name) ∧
      IsAnswer (normalizeValue value).AAAA (dns.resolve6 name) ∧
      IsAnswer (normalizeValue value).TXT (dns.resolveTxt name) := by
  unfold AnswersAt at h
  split at h
  · exact absurd rfl (hvalue _ _)
  · exact h

theorem no_record_of_answer {α : Type} {list : List α} {code : Option JSString}
    {message : JSString} (h : IsAnswer list (.rejected code message)) : isNoRecord code = true := by
  rcases h.2 with rfl | rfl
  · decide
  · decide

/-- A lookup that is answered from a list has its records, and the status that they derive. -/
theorem lookup_answer_records {α : Type} {list : List α} {outcome : DnsOutcome α}
    (h : IsAnswer list outcome) (defaultCode : JSString) :
    (lookupAnswer defaultCode outcome).records = list ∧
      (lookupAnswer defaultCode outcome).status = derivedStatus list := by
  cases outcome with
  | records found =>
      obtain rfl : found = list := h
      exact ⟨rfl, rfl⟩
  | rejected code message =>
      have hcode := no_record_of_answer h
      obtain ⟨rfl, _⟩ := h
      rw [lookupAnswer, if_pos hcode]
      exact ⟨rfl, rfl⟩

theorem rejected_records {α : Type} (defaultCode : JSString) (code : Option JSString)
    (message : JSString) :
    (lookupAnswer defaultCode (.rejected code message) : LookupAnswer α).records = [] := by
  rw [lookupAnswer]
  split
  · rfl
  · rfl

theorem derived_status_ne_error {α : Type} (list : List α) :
    isLookupErrorStatus (derivedStatus list) = false ∧ derivedStatus list ≠ text "error" := by
  unfold derivedStatus
  split
  · decide
  · decide

section

variable {dns : DnsResolver} {recordsByName : Properties MockValue} {name : JSString}

/-- What `resolveName` of the resolver returns over the mock source. -/
def mockResult (recordsByName : Properties MockValue) (name : JSString) : DnsResult :=
  normalizeDnsResult (MockHandshakeSource.resolveName recordsByName name)
    (MockHandshakeSource.source recordsByName)

/-- The result for a name with these records and without errors. -/
def recordSetResult (records : RecordSet) (info : SourceInfo) (explicit : Bool) : DnsResult :=
  let addresses := unique (records.A ++ records.AAAA)
  { status :=
      if !addresses.isEmpty || !records.TXT.isEmpty then text "ok" else text "no_records"
    resolved := !addresses.isEmpty
    addresses := addresses
    address := addresses.head?
    recordType :=
      if !records.A.isEmpty then some (text "A")
      else if !records.AAAA.isEmpty then some (text "AAAA") else none
    records := records
    recordStatus :=
      ⟨derivedStatus records.A, derivedStatus records.AAAA, derivedStatus records.TXT⟩
    hasExplicitRecordStatus := explicit
    source := info
    errors := [] }

/-- The mock source leaves the status of each type to the resolver. -/
theorem mock_result_records (hvalue : IsRecordSet (getProperty recordsByName name)) :
    mockResult recordsByName name =
      recordSetResult (normalizeValue (getProperty recordsByName name))
        MockHandshakeSource.sourceInfo false := by
  unfold mockResult MockHandshakeSource.resolveName
  split
  · rename_i hfailure
    exact absurd hfailure (hvalue _ _)
  · simp only [normalizeDnsResult, recordSetResult, MockHandshakeSource.getValue,
      Option.getD_some, Option.bind_some, Option.bind_none, Option.getD_none, Option.isSome_none,
      Option.or_self, Option.some_or]
    rfl

/-- The DNS source reports the statuses that the resolver derives otherwise. -/
theorem dns_result_records (servers : Option (List JSString))
    (h : AnswersAt dns name (getProperty recordsByName name))
    (hvalue : IsRecordSet (getProperty recordsByName name)) :
    apexResult dns servers name =
      recordSetResult (normalizeValue (getProperty recordsByName name))
        ⟨text "dns", some (servers.getD [])⟩ true := by
  obtain ⟨hA, hAAAA, hTXT⟩ := h.records hvalue
  obtain ⟨hARecords, hAStatus⟩ := lookup_answer_records hA (text "A_LOOKUP_ERROR")
  obtain ⟨hAAAARecords, hAAAAStatus⟩ := lookup_answer_records hAAAA (text "AAAA_LOOKUP_ERROR")
  obtain ⟨hTXTRecords, hTXTStatus⟩ := lookup_answer_records hTXT (text "TXT_LOOKUP_ERROR")
  simp only [apexResult, DnsResolver.resolveName, DnsResolver.mergeLookups, DnsResolver.resolveA,
    DnsResolver.resolveAAAA, DnsResolver.resolveTxtRecords, DnsResolver.issueOf, hARecords,
    hAStatus, hAAAARecords, hAAAAStatus, hTXTRecords, hTXTStatus, (derived_status_ne_error _).2,
    if_false, List.append_nil, normalizeDnsResult, recordSetResult, Option.getD_some,
    Option.bind_some, Option.isSome_some, Option.or_self, Option.some_or, List.isEmpty_nil,
    if_true]

/-! ## Lookups -/

theorem records_of_answer (json : Json) (lookup : Lookup) {list : List TxtRecord}
    {outcome : DnsOutcome TxtRecord} (h : IsAnswer list outcome) :
    recordsOf json name lookup outcome = .ok list := by
  cases outcome with
  | records found =>
      obtain rfl : found = list := h
      rfl
  | rejected code message =>
      rw [recordsOf, if_pos (no_record_of_answer h), h.1]

/-- A result without errors has no TXT error. -/
theorem txt_lookup_error_record_set {records : RecordSet} {info : SourceInfo} {explicit : Bool} :
    txtLookupError (recordSetResult records info explicit) = none := by
  have hstatus : isLookupErrorStatus (recordSetResult records info explicit).status = false := by
    unfold recordSetResult
    dsimp only
    split
    · decide
    · decide
  have hrecord : isLookupErrorStatus (recordSetResult records info explicit).recordStatus.TXT =
      false := (derived_status_ne_error records.TXT).1
  have herrors : (recordSetResult records info explicit).errors = [] := rfl
  simp [txtLookupError, herrors, hstatus, hrecord]

/-- The untagged error of the mock source counts as a TXT error. -/
theorem mock_result_failure {code message : JSString}
    (hvalue : getProperty recordsByName name = some (.failure (some code) message)) :
    (mockResult recordsByName name).records = ⟨[], [], []⟩ ∧
      (mockResult recordsByName name).addresses = [] ∧
      txtLookupError (mockResult recordsByName name) = some (some code, some message) := by
  have hanswer : MockHandshakeSource.resolveName recordsByName name =
      { status := some (text "error")
        resolved := some false
        addresses := some []
        address := none
        recordType := none
        records := some ⟨some [], some [], some []⟩
        recordStatus := none
        source := some MockHandshakeSource.sourceInfo
        errors := some [⟨none, some code, some message⟩] } := by
    rw [MockHandshakeSource.resolveName, MockHandshakeSource.getValue, hvalue]
    rfl
  rw [mockResult, hanswer]
  exact ⟨rfl, rfl, rfl⟩

/-- Where the object has an `Error`, both paths fail with its code and message. -/
theorem mock_failed_lookup (json : Json) {lookup : Lookup} {code message : JSString}
    (hvalue : getProperty recordsByName lookup.queryName = some (.failure (some code) message))
    (hcode : code ∉ noRecordCodes) (trace : Trace) :
    lookupRecords (MockHandshakeSource.source recordsByName) name
        (mockResult recordsByName name) lookup trace =
      (.ok (recordsOf json name lookup (.rejected (some code) message)),
        trace ++ lookupEvents name lookup) := by
  have hrejected : ¬ isNoRecord (some code) := by simpa [isNoRecord] using hcode
  rw [recordsOf, if_neg hrejected, attemptOf, if_neg hrejected, lookupEvents]
  by_cases hname : lookup.queryName = name
  -- At the apex the error comes back out of the combined answer.
  · obtain ⟨hrecords, _, herror⟩ := mock_result_failure (hname ▸ hvalue)
    rw [lookup_records_apex _ _ hname, apexLookup, hrecords, herror, if_pos hname, if_pos hname,
      List.append_nil]
    rfl
  · have hanswer : MockHandshakeSource.resolveTxt recordsByName lookup.queryName =
        ⟨text "error", some [], some code, some message⟩ := by
      rw [MockHandshakeSource.resolveTxt, MockHandshakeSource.getValue, hvalue]
      rfl
    rw [lookup_records_sub _ hname rfl rfl, hanswer, if_neg hname, if_neg hname]
    rfl

/-- Where the object has a record set, both paths have its TXT records. -/
theorem mock_answered_lookup {lookup : Lookup}
    (hvalue : IsRecordSet (getProperty recordsByName lookup.queryName)) (trace : Trace) :
    lookupRecords (MockHandshakeSource.source recordsByName) name
        (mockResult recordsByName name) lookup trace =
      (.ok (.ok (normalizeValue (getProperty recordsByName lookup.queryName)).TXT),
        trace ++ lookupEvents name lookup) := by
  rw [lookupEvents]
  by_cases hname : lookup.queryName = name
  · rw [hname] at hvalue ⊢
    rw [lookup_records_apex _ _ hname, apexLookup, mock_result_records hvalue,
      txt_lookup_error_record_set, ite_self, if_pos rfl, List.append_nil]
    rfl
  · have hanswer : MockHandshakeSource.resolveTxt recordsByName lookup.queryName =
        ⟨derivedStatus (normalizeValue (getProperty recordsByName lookup.queryName)).TXT,
          some (normalizeValue (getProperty recordsByName lookup.queryName)).TXT, none, none⟩ := by
      unfold MockHandshakeSource.resolveTxt
      split
      · rename_i hfailure
        exact absurd hfailure (hvalue _ _)
      · rfl
    rw [lookup_records_sub _ hname rfl rfl, hanswer, subLookup,
      if_neg (by simp [(derived_status_ne_error _).1]), if_neg hname]
    rfl

/-- What is no record set is an `Error`, with which every DNS lookup rejects. -/
theorem AnswersFrom.failure (h : AnswersFrom dns recordsByName)
    (hvalue : ¬ IsRecordSet (getProperty recordsByName name)) :
    ∃ code message, getProperty recordsByName name = some (.failure (some code) message) ∧
      code ∉ noRecordCodes ∧ dns.resolve4 name = .rejected (some code) message ∧
      dns.resolve6 name = .rejected (some code) message ∧
      dns.resolveTxt name = .rejected (some code) message := by
  obtain ⟨code, message, hfailure⟩ :
      ∃ code message, getProperty recordsByName name = some (.failure code message) := by
    simpa [IsRecordSet] using hvalue
  obtain ⟨c, rfl, hcode⟩ := h.codes name code message hfailure
  have hanswers := h.answers name
  rw [hfailure] at hanswers
  exact ⟨c, message, hfailure, hcode, hanswers⟩

/-- A lookup over the mock source leads where the TXT outcome of the name leads. -/
theorem mock_lookup_records (json : Json) (h : AnswersFrom dns recordsByName) (lookup : Lookup)
    (trace : Trace) :
    lookupRecords (MockHandshakeSource.source recordsByName) name
        (mockResult recordsByName name) lookup trace =
      (.ok (recordsOf json name lookup (dns.resolveTxt lookup.queryName)),
        trace ++ lookupEvents name lookup) := by
  by_cases hvalue : IsRecordSet (getProperty recordsByName lookup.queryName)
  · rw [mock_answered_lookup hvalue,
      records_of_answer json lookup ((h.answers lookup.queryName).records hvalue).2.2]
  · obtain ⟨code, message, hfailure, hcode, _, _, htxt⟩ := h.failure hvalue
    rw [mock_failed_lookup json hfailure hcode, htxt]

/-! ## Whole runs -/

variable (servers : Option (List JSString))

/-- What `resolveName` returns over the two sources. -/
def SameObjectResults (dns : DnsResolver) (servers : Option (List JSString))
    (recordsByName : Properties MockValue) (name : JSString)
    (dnsResult dnsResult' : DnsResult) : Prop :=
  dnsResult = mockResult recordsByName name ∧ dnsResult' = apexResult dns servers name

/-- The mock source and DNS are interchangeable. -/
theorem mock_interchangeable (h : AnswersFrom dns recordsByName) :
    Interchangeable (MockHandshakeSource.source recordsByName) (dns.source servers)
      (SameObjectResults dns servers recordsByName) where
  resolveName name trace := ⟨rfl, .returned ⟨rfl, rfl⟩⟩
  addresses := by
    rintro name _ _ ⟨rfl, rfl⟩
    by_cases hvalue : IsRecordSet (getProperty recordsByName name)
    · rw [mock_result_records hvalue, dns_result_records servers (h.answers name) hvalue]
      rfl
    · obtain ⟨code, message, hfailure, _, hresolve4, hresolve6, _⟩ := h.failure hvalue
      have haddresses : (apexResult dns servers name).addresses =
          unique ((dns.resolveA name).records ++ (dns.resolveAAAA name).records) := rfl
      rw [(mock_result_failure hfailure).2.1, haddresses, DnsResolver.resolveA,
        DnsResolver.resolveAAAA, hresolve4, hresolve6, rejected_records, rejected_records]
      rfl
  lookups := by
    rintro name _ _ ⟨rfl, rfl⟩ lookup
    refine Run.agree_of_eq fun trace => ?_
    rw [mock_lookup_records .rejecting h, lookup_records_dns dns servers .rejecting]

/-- The two results have the same verdict on the metadata. -/
structure SameVerdict (left right : ResolveResult) : Prop where
  status : left.status = right.status
  reason : left.reason = right.reason
  metadata : left.metadata = right.metadata
  attempts : left.attempts = right.attempts

/-- The mock source stands for DNS: over an object and over a DNS resolver that answers from it, the
runs of `resolve` agree on the metadata, and where the object holds no `Error` their results are
equal in every field but the source. -/
theorem mock_source_stands_for_dns (json : Json) (platform : Platform) (options : ResolverOptions)
    (h : AnswersFrom dns recordsByName) (input : JSString) :
    Run.AgreeOn (fun left right => SameVerdict left right ∧
        ((∀ name, IsRecordSet (getProperty recordsByName name)) →
          right = { left with source := right.source }))
      (resolve json platform
        { options with source := MockHandshakeSource.source recordsByName } input)
      (resolve json platform { options with source := dns.source servers } input) := by
  refine (resolve_interchangeable json platform (mock_interchangeable servers h) options
    input).mono ?_
  rintro _ _ ⟨name, _, _, metadataResult, skill, ⟨rfl, rfl⟩, rfl, rfl⟩
  refine ⟨⟨rfl, rfl, rfl, rfl⟩, fun hvalues => ?_⟩
  rw [mock_result_records (hvalues name),
    dns_result_records servers (h.answers name) (hvalues name)]
  rfl

end

/-- The resolver that answers from an object, with empty lists. -/
def resolverOf (recordsByName : Properties MockValue) : DnsResolver where
  resolve4 name :=
    match getProperty recordsByName name with
    | some (.failure code message) => .rejected code message
    | value => .records (normalizeValue value).A
  resolve6 name :=
    match getProperty recordsByName name with
    | some (.failure code message) => .rejected code message
    | value => .records (normalizeValue value).AAAA
  resolveTxt name :=
    match getProperty recordsByName name with
    | some (.failure code message) => .rejected code message
    | value => .records (normalizeValue value).TXT

theorem resolver_of_answers (recordsByName : Properties MockValue) (name : JSString) :
    AnswersAt (resolverOf recordsByName) name (getProperty recordsByName name) := by
  simp only [AnswersAt, resolverOf]
  cases getProperty recordsByName name with
  | none => exact ⟨rfl, rfl, rfl⟩
  | some value =>
      cases value with
      | failure code message => exact ⟨rfl, rfl, rfl⟩
      | null => exact ⟨rfl, rfl, rfl⟩
      | array records => exact ⟨rfl, rfl, rfl⟩
      | recordSet A AAAA TXT records => exact ⟨rfl, rfl, rfl⟩

/-- A name with an address, a failing sub-location and no metadata. -/
def exampleRecords : Properties MockValue :=
  [(text "example", .recordSet (some [text "192.0.2.1"]) none none none),
    (text "_agent.example", .failure (some (text "ESERVFAIL")) (text "queryTxt ESERVFAIL"))]

theorem example_records_answered : AnswersFrom (resolverOf exampleRecords) exampleRecords where
  answers := resolver_of_answers exampleRecords
  codes name code message h := by
    simp only [exampleRecords, getProperty] at h
    split_ifs at h
    · cases h
    · cases h
      exact ⟨text "ESERVFAIL", rfl, by decide⟩

/-- Both runs return, and they agree on the attempts. -/
theorem mock_source_stands_for_dns_example :
    ∃ left right last,
      resolve .rejecting .ascii
          { optionsOver (resolverOf exampleRecords) with
            source := MockHandshakeSource.source exampleRecords } (text "example") [] =
        (.ok left, last) ∧
      resolve .rejecting .ascii (optionsOver (resolverOf exampleRecords)) (text "example") [] =
        (.ok right, last) ∧
      left.attempts = right.attempts := by
  obtain ⟨left, last, hleft⟩ : ∃ left last, resolve .rejecting .ascii
      { optionsOver (resolverOf exampleRecords) with
        source := MockHandshakeSource.source exampleRecords } (text "example") [] =
      (.ok left, last) := ⟨_, _, rfl⟩
  obtain ⟨right, last', hright⟩ : ∃ right last, resolve .rejecting .ascii
      (optionsOver (resolverOf exampleRecords)) (text "example") [] = (.ok right, last) :=
    ⟨_, _, rfl⟩
  obtain ⟨htrace, houtcome⟩ := mock_source_stands_for_dns none .rejecting .ascii
    (optionsOver (resolverOf exampleRecords)) example_records_answered (text "example") []
  have hdns : resolve .rejecting .ascii
      { optionsOver (resolverOf exampleRecords) with
        source := (resolverOf exampleRecords).source none } (text "example") [] =
      (.ok right, last') := hright
  rw [hleft, hdns] at htrace houtcome
  obtain rfl : last = last' := htrace
  cases houtcome with
  | returned h => exact ⟨left, right, last, hleft, hright, h.1.attempts⟩

end AgentResolver
