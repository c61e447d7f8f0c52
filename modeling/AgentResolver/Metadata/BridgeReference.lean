import AgentResolver.Metadata.Diagnostics
import AgentResolver.Metadata.SchemaReference

/-!
# The reference aggregation of bridge records

What a list of HeadlessProfile records adds up to, said without the loop over the metadata object:
the last manifest, the last skill, the distinct capability items and the `arp` mark. `AddsUp` says
when the records make an identity, and `Aggregate.identity` is that identity. The validator run on
the object that the loop builds agrees with both (`adds_up_iff`, `bridge_identity`).
-/

namespace AgentResolver

open JavaScript Sequence

/-- What the bridge records of a list add up to. -/
structure Aggregate where
  endpoint : Option JSString
  skill : Option JSString
  capabilities : List JSString
  arp : Bool

def aggregate (records : List JSString) : Aggregate where
  endpoint := (records.filterMap manifestOf).getLast?
  skill := (records.filterMap skillOf).getLast?
  capabilities := firstSeen (records.flatMap capabilitiesOf)
  arp := records.any saysArp

/-- The entry of a capability or protocol that is named by one text. -/
def namedEntry (name : JSString) : SimpleObject := [(text "id", name), (text "name", name)]

def Aggregate.identity (total : Aggregate) : Identity where
  ready := none
  strings := (total.endpoint.map fun value => (text "endpoint", value)).toList ++
    (total.skill.map fun value => (text "skill", value)).toList
  capabilities := total.capabilities.map namedEntry
  protocols := if total.arp then [namedEntry (text "arp")] else []
  extra := none

/-- The bridge records make an identity: each has a value and fits into a TXT record, what they add
up to fits into an identity, and something is said at all. -/
structure AddsUp (records : List JSString) : Prop where
  short : ∀ record ∈ records, record.length ≤ maxTxtValueLength
  valued : ∀ record ∈ records, ∃ index, firstDelimiterIndex record = some index ∧
    trim (record.drop (index + 1)) ≠ []
  endpoint : ∀ value, (aggregate records).endpoint = some value →
    value.length ≤ maxStringFieldLength
  skill : ∀ value, (aggregate records).skill = some value → value.length ≤ maxStringFieldLength
  count : (aggregate records).capabilities.length ≤ maxCapabilityCount
  items : ∀ item ∈ (aggregate records).capabilities, item.length ≤ maxStringFieldLength
  signal : (aggregate records).endpoint.isSome ∨ (aggregate records).skill.isSome ∨
    (aggregate records).capabilities ≠ [] ∨ (aggregate records).arp

/-! ## Acceptance -/

theorem well_formed_iff {value : JSString} :
    IsWellFormed value ↔ value.length ≤ maxTxtValueLength ∧
      ∃ index, firstDelimiterIndex value = some index ∧ trim (value.drop (index + 1)) ≠ [] := by
  refine and_congr_right fun _ => ?_
  rw [getDelimitedValue]
  cases firstDelimiterIndex value with
  | none => simp
  | some index => simp

/-- What well-formed records say is what they add up to. -/
theorem fold_fields_aggregate {records : List JSString}
    (hwell : ∀ record ∈ records, IsWellFormed record) :
    (foldFields .empty records).endpoint = (aggregate records).endpoint ∧
      (foldFields .empty records).skill = (aggregate records).skill ∧
      (foldFields .empty records).capabilities.getD [] = (aggregate records).capabilities ∧
      (foldFields .empty records).arp = (aggregate records).arp :=
  empty_fold_fields_eq hwell

/-- The fallback accepts exactly the records that add up to an identity. -/
theorem adds_up_iff {records : List JSString} : AddsUp records ↔ BridgeAccepted records := by
  constructor
  · rintro ⟨hshort, hvalued, hendpoint, hskill, hcount, hitems, hsignal⟩
    have hwell : ∀ record ∈ records, IsWellFormed record := fun record hrecord =>
      well_formed_iff.mpr ⟨hshort record hrecord, hvalued record hrecord⟩
    obtain ⟨hendpointEq, hskillEq, hcapabilitiesEq, harpEq⟩ := fold_fields_aggregate hwell
    refine ⟨hwell, ?_, ?_, ?_, ?_, ?_⟩
    · rwa [hendpointEq]
    · rwa [hskillEq]
    · rwa [hcapabilitiesEq]
    · rwa [hcapabilitiesEq]
    · rwa [hendpointEq, hskillEq, hcapabilitiesEq, harpEq]
  · rintro ⟨hwell, hendpoint, hskill, hcount, hitems, hsignal⟩
    obtain ⟨hendpointEq, hskillEq, hcapabilitiesEq, harpEq⟩ := fold_fields_aggregate hwell
    rw [hendpointEq] at hendpoint hsignal
    rw [hskillEq] at hskill hsignal
    rw [hcapabilitiesEq] at hcount hitems hsignal
    rw [harpEq] at hsignal
    exact ⟨fun record hrecord => (well_formed_iff.mp (hwell record hrecord)).1,
      fun record hrecord => (well_formed_iff.mp (hwell record hrecord)).2,
      hendpoint, hskill, hcount, hitems, hsignal⟩

/-! ## The identity -/

theorem manifest_trimmed {record s : JSString} (h : manifestOf record = some s) : Trimmed s := by
  unfold manifestOf at h
  split at h
  · rename_i hentry
    cases h
    exact (bridge_entry_texts hentry s List.mem_cons_self).1
  · cases h

theorem skill_trimmed {record s : JSString} (h : skillOf record = some s) : Trimmed s := by
  unfold skillOf at h
  split at h
  · rename_i hentry
    cases h
    exact (bridge_entry_texts hentry s List.mem_cons_self).1
  · cases h

theorem capabilities_trimmed {record s : JSString} (h : s ∈ capabilitiesOf record) :
    Trimmed s := by
  unfold capabilitiesOf at h
  split at h
  · rename_i hentry
    exact (bridge_entry_texts hentry s h).1
  · cases h

/-- The texts that the records add up to are trimmed. -/
theorem aggregate_trimmed (records : List JSString) :
    (∀ s, (aggregate records).endpoint = some s → Trimmed s) ∧
      (∀ s, (aggregate records).skill = some s → Trimmed s) ∧
      ∀ s ∈ (aggregate records).capabilities, Trimmed s := by
  refine ⟨fun s hs => ?_, fun s hs => ?_, fun s hs => ?_⟩
  · obtain ⟨record, _, hrecord⟩ := List.mem_filterMap.mp (List.mem_of_getLast? hs)
    exact manifest_trimmed hrecord
  · obtain ⟨record, _, hrecord⟩ := List.mem_filterMap.mp (List.mem_of_getLast? hs)
    exact skill_trimmed hrecord
  · obtain ⟨record, _, hrecord⟩ := List.mem_flatMap.mp (mem_first_seen.mp hs)
    exact capabilities_trimmed hrecord

/-- The string fields of an object with a manifest and a skill. -/
theorem bridge_strings (fields : BridgeFields) :
    presentTexts (stringSource fields.read) optionalStringFields =
      (fields.endpoint.map fun value => (text "endpoint", trim value)).toList ++
        (fields.skill.map fun value => (text "skill", trim value)).toList := by
  obtain ⟨endpoint, skill, capabilities, arp⟩ := fields
  cases endpoint <;> cases skill <;> rfl

theorem string_entry_trimmed {s : JSString} (h : Trimmed s) : stringEntry s = namedEntry s := by
  rw [stringEntry, namedEntry, show trim s = s from h]

/-- On accepted records the validator returns the identity that they add up to. -/
theorem bridge_identity {records : List JSString} (h : BridgeAccepted records) :
    (validateProperties (foldFields .empty records).read).identity =
      some (aggregate records).identity := by
  obtain ⟨hendpoint, hskill, hcapabilities, harp⟩ := fold_fields_aggregate h.wellFormed
  obtain ⟨hendpointTrimmed, hskillTrimmed, hitemsTrimmed⟩ := aggregate_trimmed records
  have hvalid := is_valid_iff.mp ((validate_ok_iff _).mp
    ((bridge_valid (fold_fields_visible empty_fields_visible records)).mpr h.accepted))
  -- The object built from the records has no `ready` and no `extra`.
  have hready : normalizeBoolean ((foldFields .empty records).read (text "ready"))
      (text "ready") = .ok none := rfl
  have hstrings : (collectStringFields (stringSource (foldFields .empty records).read) id
      optionalStringFields).2 = (aggregate records).identity.strings := by
    -- The fold has trimmed the texts, so the validator trims nothing more.
    have htrim : ∀ {key : JSString} {value : Option JSString},
        (∀ s, value = some s → Trimmed s) →
        (value.map fun s => (key, trim s)) = value.map fun s => (key, s) := fun h =>
      Option.map_congr fun s hs => congrArg (Prod.mk _) (h s hs)
    rw [collected_eq hvalid.strings, bridge_strings, hendpoint, hskill, htrim hendpointTrimmed,
      htrim hskillTrimmed]
    rfl
  have hentries : (normalizeCapabilities ((foldFields .empty records).read
      (text "capabilities"))).2 = (aggregate records).identity.capabilities := by
    rw [bridge_capabilities_eq ((normalize_capabilities_spec _).1.mpr hvalid.capabilities),
      hcapabilities]
    exact List.map_congr_left fun item hitem => string_entry_trimmed (hitemsTrimmed item hitem)
  have hprotocols : (normalizeProtocols (protocolSource (foldFields .empty records).read)).2 =
      (aggregate records).identity.protocols := by
    rw [protocolSource, bridge_protocols, harp, string_entry_trimmed (by decide)]
    rfl
  rw [validate_identity hready, hstrings, hentries, hprotocols]
  rfl

/-- The bridge is its reference aggregation: where there is a bridge record and no versioned value,
an identity is found exactly when the bridge records add up to one, and it is that one; otherwise
the records are malformed. -/
theorem bridge_reference (json : Json) {records : List TxtRecord}
    (hunversioned : ∀ value ∈ records.map joinTxtRecord, isVersioned value = false)
    (hbridge : ∃ value ∈ records.map joinTxtRecord, isBridge value) :
    ((parseTxtRecords json records).status = .found ↔
        AddsUp (bridgeRecords (records.map joinTxtRecord))) ∧
      ((parseTxtRecords json records).status ≠ .found →
        (parseTxtRecords json records).status = .malformedRecords) ∧
      ((parseTxtRecords json records).status = .found →
        (parseTxtRecords json records).identity =
          some (aggregate (bridgeRecords (records.map joinTxtRecord))).identity) := by
  have hne : bridgeRecords (records.map joinTxtRecord) ≠ [] := by
    obtain ⟨value, hvalue, hkey⟩ := hbridge
    exact List.ne_nil_of_mem (List.mem_filter.mpr ⟨hvalue, hkey⟩)
  obtain ⟨-, hmalformed⟩ := (parse_of_bridge json hunversioned).2
  rw [adds_up_iff]
  by_cases h : BridgeAccepted (bridgeRecords (records.map joinTxtRecord))
  · have hfallback : parseHeadlessProfileRecords (records.map joinTxtRecord) =
        some (.found (aggregate (bridgeRecords (records.map joinTxtRecord))).identity
          (join (bridgeRecords (records.map joinTxtRecord)) [unit '\n'])
          (bridgeRecords (records.map joinTxtRecord))) := by
      have hok := (bridge_valid (fold_fields_visible empty_fields_visible _)).mpr h.accepted
      rw [bridge_fallback_eq hne, no_problem_iff.mpr h.wellFormed]
      simp only [Option.elim_none, validationResult, hok, bridge_identity h]
    have hfound : (parseTxtRecords json records).status = .found ∧
        (parseTxtRecords json records).identity =
          some (aggregate (bridgeRecords (records.map joinTxtRecord))).identity := by
      rw [parse_unversioned json hunversioned]
      simp [finishParse, hfallback, emptyParseResult]
    exact ⟨iff_of_true hfound.1 h, fun hstatus => absurd hfound.1 hstatus, fun _ => hfound.2⟩
  · obtain ⟨message, hresult⟩ := hmalformed h hne
    rw [hresult]
    exact ⟨iff_of_false (fun hstatus => by cases hstatus) h, fun _ => rfl,
      fun hstatus => by cases hstatus⟩

/-- Two skills, of which the last one counts, and capabilities that repeat. -/
theorem bridge_reference_example :
    (parseTxtRecords .rejecting [.single (text "skill: a"), .single (text "arp=yes"),
        .single (text "Agent-Capabilities: x, y,,x"), .single (text "skill-md=b")]).identity =
      some { ready := none, strings := [(text "skill", text "b")],
             capabilities := [namedEntry (text "x"), namedEntry (text "y")],
             protocols := [namedEntry (text "arp")], extra := none } :=
  (@bridge_reference .rejecting [.single (text "skill: a"), .single (text "arp=yes"),
    .single (text "Agent-Capabilities: x, y,,x"), .single (text "skill-md=b")]
    (by decide +kernel) ⟨text "arp=yes", by decide +kernel, by decide +kernel⟩).2.2
    (by decide +kernel)

end AgentResolver
