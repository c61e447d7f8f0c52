import AgentResolver.Metadata.PrintedIdentity
import AgentResolver.Resolution.Results

/-!
# Results as JSON

The object of a result, member by member in the order of the assignments in `src/resolver.js`,
`src/skill-fetch.js` and the sources. `JSON.stringify` leaves out a member whose value is
`undefined`. Every result of a run is one that can be printed: `resolve_printable`.
-/

namespace AgentResolver

open JavaScript Web
open Interaction (Run.bind_eq_ok)

/-! ## Objects -/

/-- A text or `null`. -/
def nullableText (value : Option JSString) : JsonValue := (value.map .string).getD .null

def textArray (texts : List JSString) : JsonValue := .array (texts.map .string)

/-- A record; one that is no text and no list of texts is not in the model. -/
def recordValue : TxtRecord → JsonValue
  | .segments parts => textArray parts
  | .single value => .string value
  | .other => .null

def recordsObject (records : RecordSet) : Properties JsonValue :=
  [(text "A", textArray records.A), (text "AAAA", textArray records.AAAA),
    (text "TXT", .array (records.TXT.map recordValue))]

def recordStatusObject (status : RecordStatus) : Properties JsonValue :=
  [(text "A", .string status.A), (text "AAAA", .string status.AAAA),
    (text "TXT", .string status.TXT)]

def sourceObject (source : SourceInfo) : Properties JsonValue :=
  definedMembers [(text "type", some (.string source.type)),
    (text "servers", source.servers.map textArray)]

def issueObject (issue : LookupIssue) : Properties JsonValue :=
  definedMembers [(text "recordType", issue.recordType.map .string),
    (text "code", issue.code.map .string), (text "message", issue.message.map .string)]

/-- An entry of `malformed` or `unsupported`. -/
def diagnosticObject (status : JSString) (diagnostic : Diagnostic) : Properties JsonValue :=
  [(text "status", .string status), (text "message", .string diagnostic.message),
    (text "record", .string diagnostic.record)]

/-- The text of a metadata status. -/
def MetadataStatus.name : MetadataStatus → JSString
  | .found => text "found"
  | .malformedRecords => text "malformed_records"
  | .unsupportedRecords => text "unsupported_records"
  | .lookupError => text "lookup_error"
  | .noCompatibleRecords => text "no_compatible_records"
  | .noRecords => text "no_records"

def diagnosticsValue (status : JSString) (diagnostics : List Diagnostic) : JsonValue :=
  .array (diagnostics.map fun diagnostic => .object (diagnosticObject status diagnostic))

def attemptObject (attempt : Attempt) : Properties JsonValue :=
  definedMembers [
    (text "location", some (.string attempt.location)),
    (text "queryName", some (.string attempt.queryName)),
    (text "status", some (.string attempt.status.name)),
    (text "code", attempt.code.map .string),
    (text "message", attempt.message.map .string),
    (text "records", attempt.records.map fun records => .array (records.map recordValue)),
    (text "ignored", attempt.ignored.map textArray),
    (text "malformed", attempt.malformed.map (diagnosticsValue (text "malformed"))),
    (text "unsupported", attempt.unsupported.map (diagnosticsValue (text "unsupported")))]

/-- An attempt at SKILL.md. Its status is a number of the language, so a double. -/
def skillAttemptObject (attempt : SkillAttempt) : Properties JsonValue :=
  definedMembers [
    (text "url", some (.string attempt.url)),
    (text "path", some (.string attempt.path)),
    (text "status", some (.number (toDouble attempt.status))),
    (text "found", some (.boolean attempt.found)),
    (text "error", attempt.error.map .string),
    (text "hash", attempt.hash.map .string)]

/-- The metadata of a SKILL.md file. -/
def documentObject (metadata : Properties JSString) : Properties JsonValue :=
  metadata.map fun member => (member.1, .string member.2)

/-- The result of discovery; the reason of a skipped one is also its status. -/
def skillObject (skill : SkillResult) : Properties JsonValue :=
  definedMembers [
    (text "checked", some (.boolean skill.checked)),
    (text "found", some (.boolean skill.found)),
    (text "status", skill.reason.map .string),
    (text "reason", skill.reason.map .string),
    (text "canonicalPath", some (nullableText skill.canonicalPath)),
    (text "url", some (nullableText skill.url)),
    (text "attempts", some (.array (skill.attempts.map fun attempt =>
      .object (skillAttemptObject attempt)))),
    (text "hash", skill.hash.map .string),
    (text "metadata", skill.metadata.map fun metadata => .object (documentObject metadata)),
    (text "warnings", some (textArray skill.warnings))]

def ResolveStatus.name : ResolveStatus → JSString
  | .found => text "found"
  | .notFound => text "not_found"

/-- The value of `metadata`. -/
def metadataValue (metadata : Option Identity) : JsonValue :=
  (metadata.map fun identity => .object (identityObject identity)).getD .null

/-- The object that `resolve` returns. -/
def resultObject (result : ResolveResult) : Properties JsonValue :=
  definedMembers [
    (text "name", some (.string result.name)),
    (text "resolved", some (.boolean result.resolved)),
    (text "addresses", some (textArray result.addresses)),
    (text "address", some (nullableText result.address)),
    (text "recordType", some (nullableText result.recordType)),
    (text "source", some (.object (sourceObject result.source))),
    (text "records", some (.object (recordsObject result.records))),
    (text "recordStatus", some (.object (recordStatusObject result.recordStatus))),
    (text "errors", some (.array (result.errors.map fun issue => .object (issueObject issue)))),
    (text "agentReady", some (.boolean result.agentReady)),
    (text "metadataFound", some (.boolean result.metadataFound)),
    (text "metadataSource", some (nullableText result.metadataSource)),
    (text "rawMetadata", some (nullableText result.rawMetadata)),
    (text "metadata", some (metadataValue result.metadata)),
    (text "skill", some (.object (skillObject result.skill))),
    (text "capabilities", some (.array (result.capabilities.map entryObject))),
    (text "protocols", some (.array (result.protocols.map entryObject))),
    (text "warnings", some (textArray result.warnings)),
    (text "attempts", some (.array (result.attempts.map fun attempt =>
      .object (attemptObject attempt)))),
    (text "status", some (.string result.status.name)),
    (text "reason", result.reason.map fun reason => .string reason.name),
    (text "queryName", result.queryName.map .string),
    (text "location", result.location.map .string),
    (text "identity", result.identity.map fun identity =>
      .object (identityObject identity.1 ++ [(text "subject", .string identity.2)])),
    (text "record", result.record.map .string)]

/-! ## Values of the language -/

theorem nullable_language (value : Option JSString) : IsLanguageValue (nullableText value) := by
  cases value with
  | none => exact .null
  | some value => exact .string value

theorem text_array_language (texts : List JSString) : IsLanguageValue (textArray texts) := by
  refine .array fun item hitem => ?_
  obtain ⟨s, -, rfl⟩ := List.mem_map.mp hitem
  exact .string s

/-- An array of objects. -/
theorem objects_language {α : Type} {items : List α} {object : α → Properties JsonValue}
    (h : ∀ item ∈ items, IsLanguageObject (object item)) :
    IsLanguageValue (.array (items.map fun item => .object (object item))) := by
  refine .array fun value hvalue => ?_
  obtain ⟨item, hitem, rfl⟩ := List.mem_map.mp hvalue
  exact (h item hitem).value

theorem records_language (records : List TxtRecord) :
    IsLanguageValue (.array (records.map recordValue)) := by
  refine .array fun value hvalue => ?_
  obtain ⟨record, -, rfl⟩ := List.mem_map.mp hvalue
  cases record with
  | segments parts => exact text_array_language parts
  | single value => exact .string value
  | other => exact .null

theorem some_language {value : JsonValue} (h : IsLanguageValue value) :
    ∀ other, some value = some other → IsLanguageValue other := by
  intro other hother
  rwa [← Option.some.inj hother]

theorem map_language {α : Type} {value : Option α} {f : α → JsonValue}
    (h : ∀ inner, value = some inner → IsLanguageValue (f inner)) :
    ∀ other, value.map f = some other → IsLanguageValue other := by
  intro other hother
  obtain ⟨inner, hinner, rfl⟩ := Option.map_eq_some_iff.mp hother
  exact h inner hinner

theorem map_text_language (value : Option JSString) :
    ∀ other, value.map JsonValue.string = some other → IsLanguageValue other :=
  map_language fun inner _ => .string inner

theorem source_object_language (source : SourceInfo) : IsLanguageObject (sourceObject source) := by
  refine defined_language (show [text "type", text "servers"].Nodup by decide) ?_
  simp only [List.forall_mem_cons]
  exact ⟨some_language (.string _), map_language fun _ _ => text_array_language _,
    fun _ h => absurd h List.not_mem_nil⟩

theorem issue_object_language (issue : LookupIssue) : IsLanguageObject (issueObject issue) := by
  refine defined_language
    (show [text "recordType", text "code", text "message"].Nodup by decide) ?_
  simp only [List.forall_mem_cons]
  exact ⟨map_text_language _, map_text_language _, map_text_language _,
    fun _ h => absurd h List.not_mem_nil⟩

theorem records_object_language (records : RecordSet) :
    IsLanguageObject (recordsObject records) := by
  refine ⟨show [text "A", text "AAAA", text "TXT"].Nodup by decide, ?_⟩
  simp only [recordsObject, List.forall_mem_cons]
  exact ⟨text_array_language _, text_array_language _, records_language _,
    fun _ h => absurd h List.not_mem_nil⟩

theorem record_status_object_language (status : RecordStatus) :
    IsLanguageObject (recordStatusObject status) := by
  refine ⟨show [text "A", text "AAAA", text "TXT"].Nodup by decide, ?_⟩
  simp only [recordStatusObject, List.forall_mem_cons]
  exact ⟨.string _, .string _, .string _, fun _ h => absurd h List.not_mem_nil⟩

theorem diagnostics_language (status : JSString) (diagnostics : List Diagnostic) :
    IsLanguageValue (diagnosticsValue status diagnostics) := by
  refine objects_language fun diagnostic _ => ?_
  refine ⟨show [text "status", text "message", text "record"].Nodup by decide, ?_⟩
  simp only [diagnosticObject, List.forall_mem_cons]
  exact ⟨.string _, .string _, .string _, fun _ h => absurd h List.not_mem_nil⟩

theorem attempt_object_language (attempt : Attempt) :
    IsLanguageObject (attemptObject attempt) := by
  refine defined_language (show [text "location", text "queryName", text "status", text "code",
    text "message", text "records", text "ignored", text "malformed",
    text "unsupported"].Nodup by decide) ?_
  simp only [List.forall_mem_cons]
  exact ⟨some_language (.string _), some_language (.string _), some_language (.string _),
    map_text_language _, map_text_language _, map_language fun _ _ => records_language _,
    map_language fun _ _ => text_array_language _, map_language fun _ _ => diagnostics_language _ _,
    map_language fun _ _ => diagnostics_language _ _, fun _ h => absurd h List.not_mem_nil⟩

theorem skill_attempt_object_language (attempt : SkillAttempt) :
    IsLanguageObject (skillAttemptObject attempt) := by
  refine defined_language (show [text "url", text "path", text "status", text "found",
    text "error", text "hash"].Nodup by decide) ?_
  simp only [List.forall_mem_cons]
  exact ⟨some_language (.string _), some_language (.string _),
    some_language (double_language _).value, some_language (.boolean _), map_text_language _,
    map_text_language _, fun _ h => absurd h List.not_mem_nil⟩

theorem skill_object_language {skill : SkillResult}
    (h : ∀ metadata, skill.metadata = some metadata → (metadata.map Prod.fst).Nodup) :
    IsLanguageObject (skillObject skill) := by
  refine defined_language (show [text "checked", text "found", text "status", text "reason",
    text "canonicalPath", text "url", text "attempts", text "hash", text "metadata",
    text "warnings"].Nodup by decide) ?_
  simp only [List.forall_mem_cons]
  exact ⟨some_language (.boolean _), some_language (.boolean _), map_text_language _,
    map_text_language _, some_language (nullable_language _), some_language (nullable_language _),
    some_language (objects_language fun attempt _ => skill_attempt_object_language attempt),
    map_text_language _,
    map_language fun metadata hmetadata => entry_object_language (h metadata hmetadata),
    some_language (text_array_language _), fun _ h => absurd h List.not_mem_nil⟩

theorem entries_language {entries : List SimpleObject}
    (h : ∀ entry ∈ entries, (entry.map Prod.fst).Nodup) :
    IsLanguageValue (.array (entries.map entryObject)) := by
  refine .array fun value hvalue => ?_
  obtain ⟨entry, hentry, rfl⟩ := List.mem_map.mp hvalue
  exact entry_object_language (h entry hentry)

/-- The object of an identity with its subject. -/
theorem subject_language {identity : Identity} (h : IsLanguageIdentity identity)
    (subject : JSString) :
    IsLanguageObject (identityObject identity ++ [(text "subject", .string subject)]) := by
  refine ⟨?_, List.forall_mem_append.mpr ⟨(identity_object_language h).values,
    List.forall_mem_singleton.mpr (.string subject)⟩⟩
  rw [List.map_append]
  exact ((identity_keys h).append (List.Sublist.refl [text "subject"])).nodup (by decide)

/-! ## Results of a run -/

/-- What holds of every result: no object in it has a key twice. -/
structure IsPrintable (result : ResolveResult) : Prop where
  metadata : ∀ identity, result.metadata = some identity →
    IsNormal identity ∧ IsLanguageIdentity identity
  skill : ∀ metadata, result.skill.metadata = some metadata → (metadata.map Prod.fst).Nodup
  capabilities : ∀ entry ∈ result.capabilities, (entry.map Prod.fst).Nodup
  protocols : ∀ entry ∈ result.protocols, (entry.map Prod.fst).Nodup
  identity : ∀ identity, result.identity = some identity → result.metadata = some identity.1

section

variable {json : Json} {platform : Platform} {options : ResolverOptions} {trace last : Trace}

theorem frontmatter_line_distinct {metadata : Properties JSString}
    (h : (metadata.map Prod.fst).Nodup) (line : JSString) :
    ((frontmatterLine metadata line).map Prod.fst).Nodup := by
  unfold frontmatterLine
  dsimp only
  split
  · exact h
  · split
    · exact h
    · split
      · exact h
      · exact set_property_distinct h

/-- The metadata of a SKILL.md file has no key twice. -/
theorem document_distinct (content : JSString) :
    ((parseSkillMd content).metadata.map Prod.fst).Nodup := by
  have hheading : ((parseHeadingMetadata content).map Prod.fst).Nodup := by
    unfold parseHeadingMetadata
    dsimp only
    rw [List.map_append]
    refine List.Sublist.nodup (List.Sublist.append ?_ ?_)
      (show ([text "name"] ++ [text "description"]).Nodup by decide)
    · cases (splitLines content).find? fun line => startsWith (trim line) (text "# ") with
      | none => exact List.nil_sublist _
      | some line => exact List.Sublist.refl _
    · cases ((splitLines content).map trim).find? fun line =>
          !line.isEmpty && !startsWith line [unit '#'] with
      | none => exact List.nil_sublist _
      | some line => exact List.Sublist.refl _
  unfold parseSkillMd
  split
  · rename_i frontmatter hparsed
    unfold parseFrontmatter at hparsed
    dsimp only at hparsed
    split at hparsed
    · cases hparsed
    · split at hparsed
      · cases hparsed
      · obtain rfl := Option.some.inj (Except.ok.inj hparsed)
        exact @List.foldlRecOn _ _ (fun metadata => (metadata.map Prod.fst).Nodup) _
          frontmatterLine [] List.nodup_nil
          fun metadata hmetadata line _ => frontmatter_line_distinct hmetadata line
  · exact hheading
  · exact hheading

/-- The metadata of a found file is that of some document. -/
theorem discover_or_skip_document {name : JSString} {metadata : Option Identity}
    {addresses : List JSString} {skill : SkillResult}
    (h : discoverOrSkip platform options name metadata addresses trace = (.ok skill, last)) :
    ∀ document, skill.metadata = some document →
      ∃ content, document = (parseSkillMd content).metadata := by
  unfold discoverOrSkip at h
  split at h
  · obtain ⟨plan, same, -, hrest⟩ := Run.bind_eq_ok h
    obtain ⟨⟨attempts, outcome⟩, next, -, hreturn⟩ := Run.bind_eq_ok hrest
    cases outcome with
    | some found =>
        cases hreturn
        exact fun document hdocument => ⟨found.2.2, (Option.some.inj hdocument).symm⟩
    | none =>
        cases hreturn
        exact fun document hdocument => by cases hdocument
  · cases h
    exact fun document hdocument => by cases hdocument

/-- Metadata that a search finds is one of the language. -/
theorem search_language (hjson : ∀ s value, json.parse s = .ok value → IsLanguageValue value)
    {input name : JSString} {dnsResult : DnsResult} {search : MetadataResult}
    (h : lookupMetadata json options input trace = (.ok (name, dnsResult, search), last))
    {identity : Identity} (hidentity : search.parsed.bind ParseResult.identity = some identity) :
    IsLanguageIdentity identity := by
  obtain ⟨-, lookups, next, -, -, hloop⟩ := lookup_metadata_returns h
  obtain ⟨asked, entries, hend, -, -⟩ := find_loop_run hloop
  generalize hparsed : search.parsed = parsed at hend hidentity
  generalize search.lookup = stop at hend
  cases hend with
  | exhausted entries failed => cases hidentity
  | found before lookup rest entries records split failed status =>
      exact parsed_language hjson hidentity

/-- Every result can be printed, whatever the source and the fetcher do. -/
theorem resolve_printable (hjson : ∀ s value, json.parse s = .ok value → IsLanguageValue value)
    {input : JSString} {result : ResolveResult}
    (h : resolve json platform options input trace = (.ok result, last)) : IsPrintable result := by
  obtain ⟨⟨name, dnsResult, search⟩, next, hlookup, hrest⟩ := Run.bind_eq_ok h
  obtain ⟨skill, between, hskill, hbuild⟩ := Run.bind_eq_ok hrest
  cases hbuild
  have hlanguage {identity : Identity}
      (hidentity : search.parsed.bind ParseResult.identity = some identity) :
      IsNormal identity ∧ IsLanguageIdentity identity :=
    ⟨(search_identity hlookup hidentity).1, search_language hjson hlookup hidentity⟩
  -- The lists of the result are those of the metadata.
  have hlists (entries : Identity → List SimpleObject)
      (h : ∀ identity, IsLanguageIdentity identity → ∀ entry ∈ entries identity,
        (entry.map Prod.fst).Nodup) :
      ∀ entry ∈ (search.parsed.bind ParseResult.identity).elim [] entries,
        (entry.map Prod.fst).Nodup := by
    cases hidentity : search.parsed.bind ParseResult.identity with
    | none => exact fun entry hentry => absurd hentry List.not_mem_nil
    | some identity => exact h identity (hlanguage hidentity).2
  refine ⟨fun identity hidentity => hlanguage hidentity, fun document hdocument => ?_,
    hlists _ fun _ h => h.capabilities, hlists _ fun _ h => h.protocols,
    fun identity hidentity => ?_⟩
  · obtain ⟨content, rfl⟩ := discover_or_skip_document hskill document hdocument
    exact document_distinct content
  · obtain ⟨metadata, hmetadata, rfl⟩ := Option.map_eq_some_iff.mp hidentity
    exact hmetadata

/-- A result with status `found` has metadata. -/
theorem found_metadata {input : JSString} {result : ResolveResult}
    (h : resolve json platform options input trace = (.ok result, last))
    (hfound : result.status = .found) : ∃ identity, result.metadata = some identity := by
  obtain ⟨⟨name, dnsResult, search⟩, next, -, hrest⟩ := Run.bind_eq_ok h
  obtain ⟨skill, between, -, hbuild⟩ := Run.bind_eq_ok hrest
  cases hbuild
  cases hidentity : search.parsed.bind ParseResult.identity with
  | some identity => exact ⟨identity, hidentity⟩
  | none =>
      rw [buildResult, hidentity] at hfound
      cases hfound

end

/-- The keys of a result, in the order of the assignments. -/
def resultKeys : List JSString :=
  [text "name", text "resolved", text "addresses", text "address", text "recordType",
    text "source", text "records", text "recordStatus", text "errors", text "agentReady",
    text "metadataFound", text "metadataSource", text "rawMetadata", text "metadata", text "skill",
    text "capabilities", text "protocols", text "warnings", text "attempts", text "status",
    text "reason", text "queryName", text "location", text "identity", text "record"]

theorem result_object_language {result : ResolveResult} (h : IsPrintable result) :
    IsLanguageObject (resultObject result) := by
  refine defined_language (show resultKeys.Nodup by decide) ?_
  simp only [List.forall_mem_cons]
  refine ⟨some_language (.string _), some_language (.boolean _),
    some_language (text_array_language _), some_language (nullable_language _),
    some_language (nullable_language _), some_language (source_object_language _).value,
    some_language (records_object_language _).value,
    some_language (record_status_object_language _).value,
    some_language (objects_language fun issue _ => issue_object_language issue),
    some_language (.boolean _), some_language (.boolean _), some_language (nullable_language _),
    some_language (nullable_language _), some_language ?_,
    some_language (skill_object_language h.skill).value,
    some_language (entries_language h.capabilities), some_language (entries_language h.protocols),
    some_language (text_array_language _),
    some_language (objects_language fun attempt _ => attempt_object_language attempt),
    some_language (.string _), map_language fun _ _ => .string _, map_text_language _,
    map_text_language _, map_language fun identity hidentity => ?_, map_text_language _,
    fun _ h => absurd h List.not_mem_nil⟩
  · unfold metadataValue
    cases hmetadata : result.metadata with
    | none => exact .null
    | some identity => exact (identity_object_language (h.metadata identity hmetadata).2).value
  · exact (subject_language (h.metadata _ (h.identity identity hidentity)).2 _).value

end AgentResolver
