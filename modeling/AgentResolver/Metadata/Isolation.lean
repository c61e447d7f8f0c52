import AgentResolver.Metadata.Bridge
import AgentResolver.Sequence.Edits

/-!
# Isolation of versioned metadata

The outcome of `parseTxtRecords` up to the ignored values: it depends on the versioned values alone
when there is one, and on the bridge records alone otherwise. `loop_agree_filter` removes the
values that are not versioned from the loop, `values_irrelevant` the list that the loop hands to
the bridge fallback.
-/

namespace AgentResolver

open JavaScript Sequence

/-- The two results agree on everything but the ignored values. -/
structure AgreeOnMetadata (left right : ParseResult) : Prop where
  status : left.status = right.status
  identity : left.identity = right.identity
  record : left.record = right.record
  malformed : left.malformed = right.malformed
  unsupported : left.unsupported = right.unsupported

namespace AgreeOnMetadata

variable {left middle right : ParseResult}

theorem refl (result : ParseResult) : AgreeOnMetadata result result :=
  ⟨rfl, rfl, rfl, rfl, rfl⟩

theorem symm (h : AgreeOnMetadata left right) : AgreeOnMetadata right left :=
  ⟨h.status.symm, h.identity.symm, h.record.symm, h.malformed.symm, h.unsupported.symm⟩

theorem trans (h : AgreeOnMetadata left middle) (h' : AgreeOnMetadata middle right) :
    AgreeOnMetadata left right :=
  ⟨h.status.trans h'.status, h.identity.trans h'.identity, h.record.trans h'.record,
    h.malformed.trans h'.malformed, h.unsupported.trans h'.unsupported⟩

end AgreeOnMetadata

variable {json : Json} {values values' : List JSString}

/-! ## The loop -/

/-- The code after the loop, from results that agree; the fallback is not read where there is a
diagnostic. -/
theorem finish_agree {result result' : ParseResult} (h : AgreeOnMetadata result result')
    (hbridge : result.malformed = [] → result.unsupported = [] →
      parseHeadlessProfileRecords values = parseHeadlessProfileRecords values') :
    AgreeOnMetadata (finishParse values result) (finishParse values' result') := by
  have hfallback : (if (result.malformed.isEmpty && result.unsupported.isEmpty) = true then
        parseHeadlessProfileRecords values else none) =
      (if (result'.malformed.isEmpty && result'.unsupported.isEmpty) = true then
        parseHeadlessProfileRecords values' else none) := by
    rw [← h.malformed, ← h.unsupported]
    by_cases hnone : (result.malformed.isEmpty && result.unsupported.isEmpty) = true
    · rw [if_pos hnone, if_pos hnone]
      simp only [Bool.and_eq_true, List.isEmpty_iff] at hnone
      exact hbridge hnone.1 hnone.2
    · rw [if_neg hnone, if_neg hnone]
  simp only [finishParse, hfallback]
  generalize (if (result'.malformed.isEmpty && result'.unsupported.isEmpty) = true then
    parseHeadlessProfileRecords values' else none) = bridge
  cases bridge with
  | some bridge =>
      cases bridge with
      | found identity record records => exact ⟨rfl, rfl, rfl, h.malformed, h.unsupported⟩
      | malformed message records =>
          exact ⟨rfl, h.identity, h.record, by rw [h.malformed], h.unsupported⟩
  | none =>
      simp only [h.malformed, h.unsupported]
      split_ifs
      · exact ⟨rfl, h.identity, h.record, rfl, rfl⟩
      · exact ⟨rfl, h.identity, h.record, rfl, rfl⟩
      · exact h

/-- The loop from results that agree. -/
theorem loop_agree {rest : List JSString} {result result' : ParseResult}
    (h : AgreeOnMetadata result result') :
    AgreeOnMetadata (parseLoop json values rest result) (parseLoop json values rest result') := by
  induction rest generalizing result result' with
  | nil => exact finish_agree h fun _ _ => rfl
  | cons value rest ih =>
      rw [parseLoop, parseLoop]
      cases parseMetadataValue json value with
      | found identity => exact ⟨rfl, rfl, rfl, h.malformed, h.unsupported⟩
      | malformed message =>
          exact ih ⟨h.status, h.identity, h.record, by rw [h.malformed], h.unsupported⟩
      | unsupported message =>
          exact ih ⟨h.status, h.identity, h.record, h.malformed, by rw [h.unsupported]⟩
      | ignored => exact ih ⟨h.status, h.identity, h.record, h.malformed, h.unsupported⟩

/-- The loop is decided by the versioned values that it meets. -/
theorem loop_agree_filter (rest : List JSString) (result : ParseResult) :
    AgreeOnMetadata (parseLoop json values rest result)
      (parseLoop json values (rest.filter isVersioned) result) := by
  induction rest generalizing result with
  | nil => exact .refl _
  | cons value rest ih =>
      by_cases hversioned : isVersioned value
      · rw [List.filter_cons_of_pos hversioned, parseLoop, parseLoop]
        cases parseMetadataValue json value with
        | found identity => exact .refl _
        | malformed message => exact ih _
        | unsupported message => exact ih _
        | ignored => exact ih _
      · have hignored : parseMetadataValue json value = .ignored :=
          parsed_ignored_iff.mpr (by simpa using hversioned)
        rw [List.filter_cons_of_neg hversioned, parseLoop, hignored]
        -- the ignored value is all that the accumulator gains
        have hgain : AgreeOnMetadata { result with ignored := result.ignored ++ [value] } result :=
          ⟨rfl, rfl, rfl, rfl, rfl⟩
        exact (loop_agree hgain).trans (ih result)

/-- Once a versioned value is among those the loop meets, the fallback is never reached. -/
theorem values_irrelevant {versioned : List JSString} {result : ParseResult} (hne : versioned ≠ [])
    (hversioned : ∀ value ∈ versioned, isVersioned value) :
    AgreeOnMetadata (parseLoop json values versioned result)
      (parseLoop json values' versioned result) := by
  rcases first_found json versioned with
    hnone | ⟨before, value, after, identity, rfl, hbefore, hfound⟩
  · rw [parse_loop_none_found hnone, parse_loop_none_found hnone]
    refine finish_agree (.refl _) fun hmalformed hunsupported => ?_
    obtain ⟨value, hvalue⟩ := List.exists_mem_of_ne_nil versioned hne
    exact absurd ⟨hmalformed, hunsupported⟩
      (tally_diagnostic ⟨value, hvalue, hversioned value hvalue⟩ hnone)
  · rw [parse_loop_found hbefore hfound, parse_loop_found hbefore hfound]
    exact .refl _

/-! ## Record lists -/

/-- The parse, with the loop run over the versioned values alone. -/
theorem parse_agree_filter (json : Json) (records : List TxtRecord) :
    AgreeOnMetadata (parseTxtRecords json records)
      (parseLoop json (records.map joinTxtRecord)
        ((records.map joinTxtRecord).filter isVersioned) emptyParseResult) :=
  loop_agree_filter _ _

/-- With a versioned value, the values that are not versioned do not matter. -/
theorem parse_agree_of_versioned {records records' : List TxtRecord}
    (hversioned : ∃ record ∈ records, isVersioned (joinTxtRecord record))
    (h : (records.map joinTxtRecord).filter isVersioned =
      (records'.map joinTxtRecord).filter isVersioned) :
    AgreeOnMetadata (parseTxtRecords json records) (parseTxtRecords json records') := by
  have hne : (records.map joinTxtRecord).filter isVersioned ≠ [] := by
    obtain ⟨record, hrecord, hmarked⟩ := hversioned
    exact List.ne_nil_of_mem (List.mem_filter.mpr ⟨List.mem_map_of_mem hrecord, hmarked⟩)
  have hall : ∀ value ∈ (records.map joinTxtRecord).filter isVersioned, isVersioned value :=
    fun value hvalue => (List.mem_filter.mp hvalue).2
  have hleft := parse_agree_filter json records
  have hright := parse_agree_filter json records'
  rw [← h] at hright
  exact (hleft.trans (values_irrelevant hne hall)).trans hright.symm

theorem filter_versioned_of_none {records : List TxtRecord}
    (h : ∀ record ∈ records, isVersioned (joinTxtRecord record) = false) :
    (records.map joinTxtRecord).filter isVersioned = [] := by
  refine List.filter_eq_nil_iff.mpr fun value hvalue => ?_
  obtain ⟨record, hrecord, rfl⟩ := List.mem_map.mp hvalue
  simp [h record hrecord]

/-- Without a versioned value, the unrelated values do not matter. -/
theorem parse_agree_of_bridge {records records' : List TxtRecord}
    (hnone : ∀ record ∈ records, isVersioned (joinTxtRecord record) = false)
    (hnone' : ∀ record ∈ records', isVersioned (joinTxtRecord record) = false)
    (h : (records.map joinTxtRecord).filter isBridge =
      (records'.map joinTxtRecord).filter isBridge) :
    AgreeOnMetadata (parseTxtRecords json records) (parseTxtRecords json records') := by
  have hleft := parse_agree_filter json records
  have hright := parse_agree_filter json records'
  rw [filter_versioned_of_none hnone] at hleft
  rw [filter_versioned_of_none hnone'] at hright
  refine (hleft.trans ?_).trans hright.symm
  refine finish_agree (.refl _) fun _ _ => ?_
  rw [bridge_filter, bridgeRecords, h, ← bridgeRecords, ← bridge_filter]

/-- Versioned metadata is isolated: no value is both versioned and a bridge record; with a
versioned value, edits by other records change nothing but the ignored values; and without one,
neither do edits by unrelated records. -/
theorem versioned_metadata_isolated (json : Json) :
    (∀ value, ¬ (isVersioned value ∧ isBridge value)) ∧
      (∀ records records' : List TxtRecord,
        (∃ record ∈ records, isVersioned (joinTxtRecord record)) →
        Edits (fun record => ¬ isVersioned (joinTxtRecord record)) records records' →
          AgreeOnMetadata (parseTxtRecords json records) (parseTxtRecords json records')) ∧
      (∀ records records' : List TxtRecord,
        (¬ ∃ record ∈ records, isVersioned (joinTxtRecord record)) →
        Edits (fun record => ¬ isVersioned (joinTxtRecord record) ∧
          ¬ isBridge (joinTxtRecord record)) records records' →
          AgreeOnMetadata (parseTxtRecords json records) (parseTxtRecords json records')) := by
  refine ⟨not_versioned_and_bridge, ?_, ?_⟩
  · intro records records' hversioned hedits
    have hvalues : Edits (fun value => ¬ isVersioned value) (records.map joinTxtRecord)
        (records'.map joinTxtRecord) := hedits.map fun _ h => h
    exact parse_agree_of_versioned hversioned (hvalues.filter_eq fun _ h => by simpa using h)
  · intro records records' hnone hedits
    have hvalues : Edits (fun value => ¬ isVersioned value ∧ ¬ isBridge value)
        (records.map joinTxtRecord) (records'.map joinTxtRecord) := hedits.map fun _ h => h
    have hunversioned : ∀ record ∈ records, isVersioned (joinTxtRecord record) = false :=
      fun record hrecord => by simpa using fun h => hnone ⟨record, hrecord, h⟩
    -- the edits bring no versioned value in either
    have hfilter : (records'.map joinTxtRecord).filter isVersioned = [] :=
      (hvalues.filter_eq fun _ h => by simpa using h.1).symm.trans
        (filter_versioned_of_none hunversioned)
    have hunversioned' : ∀ record ∈ records', isVersioned (joinTxtRecord record) = false := by
      intro record hrecord
      simpa using List.filter_eq_nil_iff.mp hfilter _ (List.mem_map_of_mem hrecord)
    exact parse_agree_of_bridge hunversioned hunversioned'
      (hvalues.filter_eq fun _ h => by simpa using h.2)

end AgentResolver
