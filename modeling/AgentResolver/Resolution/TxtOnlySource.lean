import AgentResolver.Resolution.MetadataSearch

/-!
# Sources without `resolveName`

A source that implements only `resolveTxt` is asked for the apex too, and `resolveName` makes a
combined answer of what it returns. `apex_lookup_txt_only` says what becomes of an answer there, as
`lookup_records_sub` does for a sub-location: an answer without records, or without an error status,
is treated alike, and of an answer with both the apex parses the records while the sub-location
reports the error. `find_loop_entries` lifts this to the attempts of a whole search.
-/

namespace AgentResolver

open JavaScript
open Interaction

variable {json : Json} {source : Source} {name : JSString} {answer : TxtAnswer}

/-! ## One answer -/

/-- What becomes of an answer at the apex: the records come first. -/
def apexRecords (answer : TxtAnswer) (lookup : Lookup) : Except Attempt (List TxtRecord) :=
  if answer.records.getD [] = [] ∧ isLookupErrorStatus answer.status then
    .error (lookupErrorAttempt lookup answer.code answer.message (some []))
  else .ok (answer.records.getD [])

/-- What `resolveName` returns over a source that answers the name so. -/
def txtOnlyResult (source : Source) (answer : TxtAnswer) : DnsResult :=
  normalizeDnsResult (nameAnswerOfTxt answer) source

/-- The TXT error is recovered from the combined answer. -/
theorem txt_lookup_error_txt_only :
    txtLookupError (txtOnlyResult source answer) =
      if isLookupErrorStatus answer.status then some (answer.code, answer.message) else none := by
  unfold txtLookupError
  -- `resolveName` tags the error of a failed answer with TXT, and makes none of any other answer.
  by_cases hstatus : isLookupErrorStatus answer.status
  · have herrors : (txtOnlyResult source answer).errors =
        [⟨some (text "TXT"), answer.code, answer.message⟩] := by
      simp only [txtOnlyResult, normalizeDnsResult, nameAnswerOfTxt, hstatus, if_true,
        Option.getD_some]
    rw [herrors, if_pos hstatus]
    rfl
  · have herrors : (txtOnlyResult source answer).errors = [] := by
      simp only [txtOnlyResult, normalizeDnsResult, nameAnswerOfTxt, hstatus, if_false,
        Option.getD_some, Bool.false_eq_true]
    have hrecord : (txtOnlyResult source answer).recordStatus.TXT = answer.status := rfl
    have hexplicit : (txtOnlyResult source answer).hasExplicitRecordStatus = true := rfl
    simp [herrors, hrecord, hexplicit, hstatus]

theorem apex_lookup_txt_only (lookup : Lookup) :
    apexLookup (txtOnlyResult source answer) lookup = apexRecords answer lookup := by
  have hrecords : (txtOnlyResult source answer).records.TXT = answer.records.getD [] := rfl
  rw [apexLookup, apexRecords, hrecords, txt_lookup_error_txt_only]
  by_cases hempty : answer.records.getD [] = []
  · by_cases hstatus : isLookupErrorStatus answer.status
    · rw [if_pos (by simp [hempty]), if_pos hstatus, if_pos ⟨hempty, hstatus⟩]
    · rw [if_pos (by simp [hempty]), if_neg hstatus, if_neg fun h => hstatus h.2]
  · rw [if_neg (by simp [hempty]), if_neg fun h => hempty h.1]

/-! ## The attempts of a search -/

/-- The entry of `attempts` that a lookup makes. -/
def entryOf (json : Json) (lookup : Lookup) : Except Attempt (List TxtRecord) → Attempt
  | .error attempt => attempt
  | .ok records => metadataAttemptFromParsed lookup (parseTxtRecords json records) records

/-- A failed lookup makes the entry of a failed lookup. -/
theorem failed_entry {dnsResult : DnsResult} {lookup : Lookup} {trace next : Trace}
    {attempt : Attempt}
    (h : lookupRecords source name dnsResult lookup trace = (.ok (.error attempt), next)) :
    attempt.queryName = lookup.queryName ∧ attempt.status = .lookupError := by
  unfold lookupRecords at h
  split_ifs at h
  · dsimp only at h
    generalize (if dnsResult.records.TXT.isEmpty = true then txtLookupError dnsResult else none) =
      error at h
    cases error with
    | none => cases h
    | some error =>
        cases h
        exact ⟨rfl, rfl⟩
  · cases hsource : source.resolveTxt with
    | none =>
        rw [hsource] at h
        cases h
    | some resolveTxt =>
        rw [hsource] at h
        obtain ⟨response, between, _, hresponse⟩ := Run.bind_eq_ok h
        dsimp only at hresponse
        split_ifs at hresponse
        · cases hresponse
          exact ⟨rfl, rfl⟩
        · cases hresponse

theorem parsed_entry_found (lookup : Lookup) {records : List TxtRecord} :
    (entryOf json lookup (.ok records)).status = .found ↔
      (parseTxtRecords json records).status = .found := by
  cases records with
  | nil => exact iff_of_false (by simp [entryOf, metadataAttemptFromParsed]) (parse_nil_status json)
  | cons record rest => exact Iff.rfl

/-- `MadeAt lookup entry` says some query of the search makes the entry of the lookup. -/
def MadeAt (json : Json) (source : Source) (name : JSString) (dnsResult : DnsResult)
    (lookup : Lookup) (entry : Attempt) : Prop :=
  ∃ outcome before after,
    lookupRecords source name dnsResult lookup before = (.ok outcome, after) ∧
      entry = entryOf json lookup outcome

theorem MadeAt.queryName {dnsResult : DnsResult} {lookup : Lookup} {entry : Attempt}
    (h : MadeAt json source name dnsResult lookup entry) : entry.queryName = lookup.queryName := by
  obtain ⟨outcome, before, after, hrun, rfl⟩ := h
  cases outcome with
  | error attempt => exact (failed_entry hrun).1
  | ok records => rfl

/-- The attempts of a search are made at its lookups, and metadata is found at the lookup whose
attempt says so. -/
structure MakesEntries (json : Json) (source : Source) (name : JSString) (dnsResult : DnsResult)
    (result : MetadataResult) (entries : List Attempt) : Prop where
  made : ∀ entry ∈ entries, ∃ lookup, MadeAt json source name dnsResult lookup entry
  found : ∀ entry ∈ entries, entry.status = .found →
    result.lookup.map Lookup.queryName = some entry.queryName
  reached : ∀ lookup, result.lookup = some lookup →
    ∃ entry ∈ entries, entry.queryName = lookup.queryName ∧ entry.status = .found

theorem MakesEntries.cons {dnsResult : DnsResult} {result : MetadataResult}
    {entries : List Attempt} {lookup : Lookup} {entry : Attempt}
    (h : MakesEntries json source name dnsResult result entries)
    (hmade : MadeAt json source name dnsResult lookup entry) (hstatus : entry.status ≠ .found) :
    MakesEntries json source name dnsResult result (entry :: entries) := by
  refine ⟨fun other hother => ?_, fun other hother hfound => ?_, fun found hfound => ?_⟩
  · rcases List.mem_cons.mp hother with rfl | hother
    · exact ⟨lookup, hmade⟩
    · exact h.made other hother
  · rcases List.mem_cons.mp hother with rfl | hother
    · exact absurd hfound hstatus
    · exact h.found other hother hfound
  · obtain ⟨other, hother, hspec⟩ := h.reached found hfound
    exact ⟨other, List.mem_cons_of_mem _ hother, hspec⟩

/-- The search loop appends entries that are made at its lookups. -/
theorem find_loop_entries {dnsResult : DnsResult} {lookups : List Lookup}
    {attempts : List Attempt} {trace last : Trace} {result : MetadataResult}
    (h : findLoop json source name dnsResult lookups attempts trace = (.ok result, last)) :
    ∃ entries, result.attempts = attempts ++ entries ∧
      MakesEntries json source name dnsResult result entries := by
  -- Every iteration adds its entry to the attempts, so these are generalised.
  induction lookups generalizing attempts trace with
  | nil =>
      cases h
      refine ⟨[], (List.append_nil _).symm, ?_, ?_, ?_⟩
      · intro entry hentry
        cases hentry
      · intro entry hentry
        cases hentry
      · intro lookup hlookup
        cases hlookup
  | cons lookup rest ih =>
      rw [findLoop] at h
      obtain ⟨outcome, next, hrecords, hnext⟩ := Run.bind_eq_ok h
      have hmade : MadeAt json source name dnsResult lookup (entryOf json lookup outcome) :=
        ⟨outcome, trace, next, hrecords, rfl⟩
      cases outcome with
      | error attempt =>
          obtain ⟨entries, hattempts, hentries⟩ := ih hnext
          refine ⟨attempt :: entries, ?_, hentries.cons hmade ?_⟩
          · rw [hattempts, List.append_assoc, List.singleton_append]
          · show attempt.status ≠ .found
            rw [(failed_entry hrecords).2]
            decide
      | ok records =>
          dsimp only at hnext
          by_cases hparsed : (parseTxtRecords json records).status = .found
          · rw [if_pos hparsed] at hnext
            cases hnext
            have hstatus := (parsed_entry_found lookup).mpr hparsed
            refine ⟨[entryOf json lookup (.ok records)], rfl, fun entry hentry => ?_,
              fun entry hentry _ => ?_, fun found hfound => ?_⟩
            · rw [List.mem_singleton.mp hentry]
              exact ⟨lookup, hmade⟩
            · rw [List.mem_singleton.mp hentry]
              rfl
            · cases hfound
              exact ⟨_, List.mem_singleton_self _, rfl, hstatus⟩
          · rw [if_neg hparsed] at hnext
            obtain ⟨entries, hattempts, hentries⟩ := ih hnext
            refine ⟨entryOf json lookup (.ok records) :: entries, ?_,
              hentries.cons hmade (mt (parsed_entry_found lookup).mp hparsed)⟩
            rw [hattempts, List.append_assoc, List.singleton_append]
            rfl

/-! ## The two paths -/

/-- A source without `resolveName` that gives the same answer at two names. -/
structure AnswersAlike (source : Source) (name sub : JSString) (answer : TxtAnswer) : Prop where
  txtOnly : source.resolveName = none
  distinct : sub ≠ name
  answers : ∃ resolveTxt, source.resolveTxt = some resolveTxt ∧
    ∀ trace, resolveTxt trace name = .ok answer ∧ resolveTxt trace sub = .ok answer

/-- The two entries say the same of the lookups. -/
structure SameEntry (entry entry' : Attempt) : Prop where
  status : entry.status = entry'.status
  code : entry.code = entry'.code
  message : entry.message = entry'.message
  ignored : entry.ignored = entry'.ignored
  malformed : entry.malformed = entry'.malformed
  unsupported : entry.unsupported = entry'.unsupported

variable {sub : JSString}

/-- What the run of the lookup stage over such a source looks like. -/
theorem lookup_metadata_txt_only {options : ResolverOptions} {input : JSString}
    (h : AnswersAlike options.source name sub answer) {dnsResult : DnsResult}
    {result : MetadataResult} {trace last : Trace}
    (hrun : lookupMetadata json options input trace = (.ok (name, dnsResult, result), last)) :
    dnsResult = txtOnlyResult options.source answer ∧
      MakesEntries json options.source name dnsResult result result.attempts := by
  obtain ⟨resolveTxt, hresolve, hanswers⟩ := h.answers
  rw [lookupMetadata] at hrun
  obtain ⟨normalizedName, next, hname, hrun⟩ := Run.bind_eq_ok hrun
  obtain ⟨other, afterName, hother, hrun⟩ := Run.bind_eq_ok hrun
  obtain ⟨found, afterFind, hfind, hrun⟩ := Run.bind_eq_ok hrun
  cases hrun
  have happly : resolveName options.source name next =
      (.ok (txtOnlyResult options.source answer), next ++ [.resolveTxt name]) := by
    have hcall : Run.call (.resolveTxt name) (fun trace => resolveTxt trace name) next =
        (.ok answer, next ++ [.resolveTxt name]) := by
      rw [Run.call_apply, (hanswers next).1]
    rw [resolveName, h.txtOnly, hresolve]
    exact Run.bind_ok hcall
  rw [happly] at hother
  cases hother
  rw [findMetadata] at hfind
  obtain ⟨lookups, afterBuild, _, hloop⟩ := Run.bind_eq_ok hfind
  obtain ⟨entries, hattempts, hentries⟩ := find_loop_entries hloop
  rw [List.nil_append] at hattempts
  exact ⟨rfl, hattempts ▸ hentries⟩

/-- The entries at the apex and at the sub-location, by the answer. -/
theorem entries_by_answer {source : Source} (h : AnswersAlike source name sub answer)
    {lookup : Lookup} {entry : Attempt}
    (hmade : MadeAt json source name (txtOnlyResult source answer) lookup entry) :
    (entry.queryName = name → entry = entryOf json lookup (apexRecords answer lookup)) ∧
      (entry.queryName = sub → entry = entryOf json lookup (subLookup answer lookup)) := by
  obtain ⟨resolveTxt, hresolve, hanswers⟩ := h.answers
  have hlookup := hmade.queryName
  obtain ⟨outcome, before, after, hrun, rfl⟩ := hmade
  rw [hlookup]
  refine ⟨fun hname => ?_, fun hsub => ?_⟩
  · rw [lookup_records_apex _ _ hname, apex_lookup_txt_only] at hrun
    cases hrun
    rfl
  · have hne : lookup.queryName ≠ name := hsub ▸ h.distinct
    have hanswer : resolveTxt before lookup.queryName = .ok answer := by
      rw [hsub]
      exact (hanswers before).2
    rw [lookup_records_sub _ hne hresolve hanswer] at hrun
    cases hrun
    rfl

/-- The status of an entry does not depend on the lookup that made it. -/
theorem entry_status_by_answer (json : Json) (answer : TxtAnswer) (lookup lookup' : Lookup) :
    (entryOf json lookup (apexRecords answer lookup)).status =
        (entryOf json lookup' (apexRecords answer lookup')).status ∧
      (entryOf json lookup (subLookup answer lookup)).status =
        (entryOf json lookup' (subLookup answer lookup')).status := by
  unfold apexRecords subLookup
  constructor
  · split
    · rfl
    · rfl
  · split
    · rfl
    · rfl

/-- Metadata is found at a name exactly when the entries there say so. -/
theorem MakesEntries.found_iff {dnsResult : DnsResult} {result : MetadataResult}
    {entries : List Attempt} (h : MakesEntries json source name dnsResult result entries)
    {entry : Attempt} (hentry : entry ∈ entries)
    (hsame : ∀ other ∈ entries, other.queryName = entry.queryName →
      other.status = entry.status) :
    result.lookup.map Lookup.queryName = some entry.queryName ↔ entry.status = .found := by
  refine ⟨fun hfound => ?_, h.found entry hentry⟩
  obtain ⟨lookup, hlookup, hname⟩ := Option.map_eq_some_iff.mp hfound
  obtain ⟨other, hother, hotherName, hstatus⟩ := h.reached lookup hlookup
  rw [← hsame other hother (hotherName.trans hname), hstatus]

/-- An answer without records or without an error status makes the same entry on both paths. -/
theorem same_entry_of_answer (json : Json)
    (h : isLookupErrorStatus answer.status = false ∨ answer.records.getD [] = [])
    (lookup lookup' : Lookup) :
    SameEntry (entryOf json lookup (apexRecords answer lookup))
      (entryOf json lookup' (subLookup answer lookup')) := by
  unfold apexRecords subLookup
  by_cases hstatus : isLookupErrorStatus answer.status
  · have hempty : answer.records.getD [] = [] := h.resolve_left (by simp [hstatus])
    rw [if_pos ⟨hempty, hstatus⟩, if_pos hstatus]
    exact ⟨rfl, rfl, rfl, rfl, rfl, rfl⟩
  · rw [if_neg fun hboth => hstatus hboth.2, if_neg hstatus]
    exact ⟨rfl, rfl, rfl, rfl, rfl, rfl⟩

/-- The apex and a sub-location treat the same answer alike, if it has no records or no error
status: the entries of any two searches agree, and metadata is found at the one name exactly when
it is found at the other. Of an answer with both, the apex parses the records and the sub-location
reports the error. -/
theorem txt_only_paths_agree {options options' : ResolverOptions} {input input' : JSString}
    (hsource : AnswersAlike options.source name sub answer)
    (hsame : options'.source = options.source) {dnsResult dnsResult' : DnsResult}
    {result result' : MetadataResult} {trace trace' last last' : Trace}
    (hrun : lookupMetadata json options input trace = (.ok (name, dnsResult, result), last))
    (hrun' : lookupMetadata json options' input' trace' =
      (.ok (name, dnsResult', result'), last'))
    {apex other : Attempt} (hapex : apex ∈ result.attempts) (hapexName : apex.queryName = name)
    (hother : other ∈ result'.attempts) (hotherName : other.queryName = sub) :
    ((isLookupErrorStatus answer.status = false ∨ answer.records.getD [] = []) →
        SameEntry apex other ∧
          (result.lookup.map Lookup.queryName = some name ↔
            result'.lookup.map Lookup.queryName = some sub)) ∧
      ((isLookupErrorStatus answer.status = true ∧ answer.records.getD [] ≠ []) →
        apex.status = (parseTxtRecords json (answer.records.getD [])).status ∧
          other.status = .lookupError) := by
  obtain ⟨rfl, hentries⟩ := lookup_metadata_txt_only hsource hrun
  obtain ⟨rfl, hentries'⟩ := lookup_metadata_txt_only (hsame ▸ hsource) hrun'
  rw [hsame] at hentries'
  obtain ⟨lookup, hmade⟩ := hentries.made apex hapex
  obtain ⟨lookup', hmade'⟩ := hentries'.made other hother
  have hapexEq := (entries_by_answer hsource hmade).1 hapexName
  have hotherEq := (entries_by_answer hsource hmade').2 hotherName
  constructor
  · intro h
    have hagree : SameEntry apex other := by
      rw [hapexEq, hotherEq]
      exact same_entry_of_answer json h lookup lookup'
    refine ⟨hagree, ?_⟩
    rw [← hapexName, ← hotherName, hentries.found_iff hapex, hentries'.found_iff hother,
      hagree.status]
    · intro third hthird hthirdName
      obtain ⟨lookup'', hmade''⟩ := hentries'.made third hthird
      -- Entries at the same name differ at most in the lookup that made them.
      rw [(entries_by_answer hsource hmade'').2 (hthirdName.trans hotherName), hotherEq]
      exact (entry_status_by_answer json answer lookup'' lookup').2
    · intro third hthird hthirdName
      obtain ⟨lookup'', hmade''⟩ := hentries.made third hthird
      rw [(entries_by_answer hsource hmade'').1 (hthirdName.trans hapexName), hapexEq]
      exact (entry_status_by_answer json answer lookup'' lookup).1
  · rintro ⟨hstatus, hrecords⟩
    rw [hapexEq, hotherEq, apexRecords, subLookup, if_neg fun hboth => hrecords hboth.1,
      if_pos hstatus]
    exact ⟨if_neg (by simpa using hrecords), rfl⟩

/-- A resolver whose source gives one answer at every name. -/
def answerEverywhere (answer : TxtAnswer) (locations : List LookupLocation) : ResolverOptions where
  source := ⟨none, some fun _ _ => .ok answer, none⟩
  lookupLocations := some locations
  timeoutMs := none
  fetchPath := ⟨none, fun _ _ _ => .error ⟨text "connect ECONNREFUSED"⟩⟩
  defaultScheme := none
  forceSkillDiscovery := false

/-- An answer with metadata. -/
def metadataAnswer : TxtAnswer :=
  ⟨text "ok", some [.single (text "hns-agent=v1;id=a")], none, none⟩

/-- Metadata that is found at the apex is found at a sub-location. -/
theorem txt_only_paths_agree_example :
    ∃ dnsResult dnsResult' result result' last last',
      lookupMetadata .rejecting (answerEverywhere metadataAnswer [.string (text "@")])
          (text "example") [] = (.ok (text "example", dnsResult, result), last) ∧
        lookupMetadata .rejecting (answerEverywhere metadataAnswer [.string (text "_agent")])
          (text "example") [] = (.ok (text "example", dnsResult', result'), last') ∧
        (result.lookup.map Lookup.queryName = some (text "example") ↔
          result'.lookup.map Lookup.queryName = some (text "_agent.example")) := by
  have hsource : AnswersAlike (answerEverywhere metadataAnswer [.string (text "@")]).source
      (text "example") (text "_agent.example") metadataAnswer :=
    ⟨rfl, by decide, _, rfl, fun _ => ⟨rfl, rfl⟩⟩
  have hsame : (answerEverywhere metadataAnswer [.string (text "_agent")]).source =
      (answerEverywhere metadataAnswer [.string (text "@")]).source := rfl
  obtain ⟨dnsResult, result, last, hrun, apex, hapex, hapexName⟩ : ∃ dnsResult result last,
      lookupMetadata .rejecting (answerEverywhere metadataAnswer [.string (text "@")])
          (text "example") [] = (.ok (text "example", dnsResult, result), last) ∧
        ∃ apex ∈ result.attempts, apex.queryName = text "example" :=
    ⟨_, _, _, rfl, _, List.mem_cons_self, rfl⟩
  obtain ⟨dnsResult', result', last', hrun', other, hother, hotherName⟩ :
      ∃ dnsResult result last,
        lookupMetadata .rejecting (answerEverywhere metadataAnswer [.string (text "_agent")])
            (text "example") [] = (.ok (text "example", dnsResult, result), last) ∧
          ∃ other ∈ result.attempts, other.queryName = text "_agent.example" :=
    ⟨_, _, _, rfl, _, List.mem_cons_self, rfl⟩
  obtain ⟨hagree, -⟩ :=
    txt_only_paths_agree hsource hsame hrun hrun' hapex hapexName hother hotherName
  exact ⟨dnsResult, dnsResult', result, result', last, last', hrun, hrun',
    (hagree (Or.inl (by decide))).2⟩

/-- An answer with an error status and records is metadata at the apex and a failed lookup at the
sub-location. -/
theorem failed_answer_with_records :
    ∃ dnsResult result last,
      lookupMetadata .rejecting
          (answerEverywhere ⟨text "error", some [.single (text "hns-agent=v1;id=a")], none, none⟩
            [.string (text "_agent"), .string (text "@")]) (text "example") [] =
        (.ok (text "example", dnsResult, result), last) ∧
      result.attempts.map (fun attempt => (attempt.queryName, attempt.status)) =
        [(text "_agent.example", .lookupError), (text "example", .found)] :=
  ⟨_, _, _, rfl, by decide +kernel⟩

end AgentResolver
