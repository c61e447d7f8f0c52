import AgentResolver.Metadata.Order
import AgentResolver.Sequence.Dealt

/-!
# Every record is accounted for

Where the joined values of a record list end up. Without metadata each versioned value has its own
diagnostic and every other value is ignored; without a versioned value the bridge records make up
one diagnostic, or the record that was found, and the remaining values are ignored.
`diagnostics_partition` collects the three cases.
-/

namespace AgentResolver

open JavaScript Sequence

variable {json : Json} {values : List JSString}

/-! ## Versioned values -/

/-- A value that is no valid metadata has exactly one of three fates. -/
theorem fate_of_value {value : JSString} (h : foundIdentity json value = none) :
    ((malformedDiagnostic json value).isSome = true ∧
        (unsupportedDiagnostic json value).isSome = false ∧ (!isVersioned value) = false) ∨
      ((malformedDiagnostic json value).isSome = false ∧
        (unsupportedDiagnostic json value).isSome = true ∧ (!isVersioned value) = false) ∨
      ((malformedDiagnostic json value).isSome = false ∧
        (unsupportedDiagnostic json value).isSome = false ∧ (!isVersioned value) = true) := by
  cases hparsed : parseMetadataValue json value with
  | found identity => simp [foundIdentity, hparsed] at h
  | malformed message =>
      have hsome : (malformedDiagnostic json value).isSome := by
        simp [malformedDiagnostic, hparsed]
      exact Or.inl ⟨hsome, by simp [unsupportedDiagnostic, hparsed],
        by simp [versioned_of_malformed hsome]⟩
  | unsupported message =>
      have hsome : (unsupportedDiagnostic json value).isSome := by
        simp [unsupportedDiagnostic, hparsed]
      exact Or.inr (Or.inl ⟨by simp [malformedDiagnostic, hparsed], hsome,
        by simp [versioned_of_unsupported hsome]⟩)
  | ignored =>
      exact Or.inr (Or.inr ⟨by simp [malformedDiagnostic, hparsed],
        by simp [unsupportedDiagnostic, hparsed], by simp [parsed_ignored_iff.mp hparsed]⟩)

/-- The values are dealt out to the three lists of the result object. -/
theorem tally_dealt (h : ∀ value ∈ values, foundIdentity json value = none) :
    Dealt values ((tally json values emptyParseResult).malformed.map Diagnostic.record)
      ((tally json values emptyParseResult).unsupported.map Diagnostic.record)
      (tally json values emptyParseResult).ignored := by
  have hdealt := dealt_filter fun value hvalue => fate_of_value (h value hvalue)
  rw [← filter_map_eq_filter fun _ _ => malformed_diagnostic_record,
    ← filter_map_eq_filter fun _ _ => unsupported_diagnostic_record] at hdealt
  exact hdealt

/-- A result without metadata comes from values none of which is valid. -/
theorem none_found_of_status {records : List TxtRecord}
    (h : (parseTxtRecords json records).status ≠ .found) :
    ∀ value ∈ records.map joinTxtRecord, foundIdentity json value = none := by
  rcases first_found json (records.map joinTxtRecord) with
    hnone | ⟨before, value, after, identity, hvalues, hbefore, hfound⟩
  · exact hnone
  · refine absurd ?_ h
    rw [parseTxtRecords]
    simp only [hvalues]
    rw [parse_loop_found hbefore hfound]

/-- With a versioned value and no metadata the result is the tally of the values. -/
theorem parse_versioned {records : List TxtRecord}
    (h : ∀ value ∈ records.map joinTxtRecord, foundIdentity json value = none)
    (hversioned : ∃ value ∈ records.map joinTxtRecord, isVersioned value) :
    ∃ status, status ≠ .found ∧ parseTxtRecords json records =
      { tally json (records.map joinTxtRecord) emptyParseResult with status := status } := by
  rw [parse_none_found h, finish_with_diagnostics (tally_diagnostic hversioned h)]
  refine ⟨_, ?_, rfl⟩
  split <;> simp

/-- A result that is found by no versioned value comes from a list without one. -/
theorem unversioned_of_found {records : List TxtRecord}
    (hstatus : (parseTxtRecords json records).status = .found)
    (hnone : ∀ value ∈ records.map joinTxtRecord, foundIdentity json value = none) :
    ∀ value ∈ records.map joinTxtRecord, isVersioned value = false := by
  -- A versioned value that is not valid would have left a diagnostic instead.
  intro value hvalue
  by_contra hmarked
  obtain ⟨status, hne, hresult⟩ := parse_versioned hnone ⟨value, hvalue, by simpa using hmarked⟩
  rw [hresult] at hstatus
  exact hne hstatus

/-! ## Bridge records -/

/-- The values that are no bridge records are what the filter of the fallback leaves. -/
theorem filter_not_bridge (values : List JSString) :
    (values.filter fun value => !(bridgeRecords values).contains value) =
      values.filter fun value => !isBridge value := by
  refine List.filter_congr fun value hvalue => congrArg (!·) ?_
  rw [Bool.eq_iff_iff, List.contains_iff_mem, bridgeRecords, List.mem_filter]
  exact and_iff_right hvalue

/-- The parse of values without a version marker, by the bridge records. -/
theorem parse_of_bridge (json : Json) {records : List TxtRecord}
    (h : ∀ value ∈ records.map joinTxtRecord, isVersioned value = false) :
    (bridgeRecords (records.map joinTxtRecord) = [] →
        parseTxtRecords json records =
          { emptyParseResult with ignored := records.map joinTxtRecord }) ∧
      (BridgeAccepted (bridgeRecords (records.map joinTxtRecord)) →
        bridgeRecords (records.map joinTxtRecord) ≠ [] →
        ∃ identity, parseTxtRecords json records =
          { emptyParseResult with
            status := .found
            identity := some identity
            record := some (join (bridgeRecords (records.map joinTxtRecord)) [unit '\n'])
            ignored := (records.map joinTxtRecord).filter fun value => !isBridge value }) ∧
      (¬ BridgeAccepted (bridgeRecords (records.map joinTxtRecord)) →
        bridgeRecords (records.map joinTxtRecord) ≠ [] →
        ∃ message, parseTxtRecords json records =
          { emptyParseResult with
            status := .malformedRecords
            malformed := [⟨message, join (bridgeRecords (records.map joinTxtRecord)) [unit '\n']⟩]
            ignored := (records.map joinTxtRecord).filter fun value => !isBridge value }) := by
  rw [parse_unversioned json h, ← filter_not_bridge]
  obtain ⟨hnone, -, hmalformed⟩ := finish_unversioned (records.map joinTxtRecord)
  refine ⟨hnone, fun haccepted hne => ?_, hmalformed⟩
  obtain ⟨identity, hfallback⟩ := (bridge_fallback_some hne).1 haccepted
  exact ⟨identity, by simp [finishParse, hfallback, emptyParseResult]⟩

/-! ## The three cases -/

/-- No record is lost or counted twice. Without metadata and with a versioned value, the values are
dealt out to the three lists, and exactly those that are not versioned are ignored. Without
metadata and without a versioned value, the bridge records make up one malformed entry if there are
any, and the other values are ignored. A result that is found by no versioned value has the bridge
records as its record, and the other values are ignored. -/
theorem diagnostics_partition (json : Json) (records : List TxtRecord) :
    ((parseTxtRecords json records).status ≠ .found →
      (∃ value ∈ records.map joinTxtRecord, isVersioned value) →
        Dealt (records.map joinTxtRecord)
            ((parseTxtRecords json records).malformed.map Diagnostic.record)
            ((parseTxtRecords json records).unsupported.map Diagnostic.record)
            (parseTxtRecords json records).ignored ∧
          (parseTxtRecords json records).ignored =
            (records.map joinTxtRecord).filter fun value => !isVersioned value) ∧
      ((parseTxtRecords json records).status ≠ .found →
        (∀ value ∈ records.map joinTxtRecord, isVersioned value = false) →
          (parseTxtRecords json records).unsupported = [] ∧
            (parseTxtRecords json records).malformed.map Diagnostic.record =
              (if bridgeRecords (records.map joinTxtRecord) = [] then []
                else [join (bridgeRecords (records.map joinTxtRecord)) [unit '\n']]) ∧
            (parseTxtRecords json records).ignored =
              (records.map joinTxtRecord).filter fun value => !isBridge value) ∧
      ((parseTxtRecords json records).status = .found →
        (∀ value ∈ records.map joinTxtRecord, foundIdentity json value = none) →
          (parseTxtRecords json records).record =
              some (join (bridgeRecords (records.map joinTxtRecord)) [unit '\n']) ∧
            bridgeRecords (records.map joinTxtRecord) ≠ [] ∧
            (parseTxtRecords json records).malformed = [] ∧
            (parseTxtRecords json records).unsupported = [] ∧
            (parseTxtRecords json records).ignored =
              (records.map joinTxtRecord).filter fun value => !isBridge value) := by
  refine ⟨fun hstatus hversioned => ?_, fun hstatus hunversioned => ?_, fun hstatus hnone => ?_⟩
  · have hnone := none_found_of_status hstatus
    obtain ⟨status, -, hresult⟩ := parse_versioned hnone hversioned
    rw [hresult]
    exact ⟨tally_dealt hnone, rfl⟩
  · obtain ⟨hempty, haccepted, hmalformed⟩ := parse_of_bridge json hunversioned
    by_cases hnil : bridgeRecords (records.map joinTxtRecord) = []
    · have hignored : ((records.map joinTxtRecord).filter fun value => !isBridge value) =
          records.map joinTxtRecord := by
        rw [← filter_not_bridge, hnil]
        simp
      rw [if_pos hnil, hempty hnil, hignored]
      exact ⟨rfl, rfl, rfl⟩
    · rw [if_neg hnil]
      -- Accepted bridge records would have been found.
      have hrejected : ¬ BridgeAccepted (bridgeRecords (records.map joinTxtRecord)) := by
        intro h
        obtain ⟨identity, hresult⟩ := haccepted h hnil
        exact hstatus (by rw [hresult])
      obtain ⟨message, hresult⟩ := hmalformed hrejected hnil
      rw [hresult]
      exact ⟨rfl, rfl, rfl⟩
  · have hunversioned := unversioned_of_found hstatus hnone
    obtain ⟨hempty, haccepted, hmalformed⟩ := parse_of_bridge json hunversioned
    have hne : bridgeRecords (records.map joinTxtRecord) ≠ [] := by
      intro hnil
      rw [hempty hnil] at hstatus
      cases hstatus
    by_cases h : BridgeAccepted (bridgeRecords (records.map joinTxtRecord))
    · obtain ⟨identity, hresult⟩ := haccepted h hne
      rw [hresult]
      exact ⟨rfl, hne, rfl, rfl, rfl⟩
    · obtain ⟨message, hresult⟩ := hmalformed h hne
      rw [hresult] at hstatus
      cases hstatus

end AgentResolver
