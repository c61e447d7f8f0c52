import AgentResolver.Metadata.Parse

/-!
# What the parse loop computes

`parse_loop_found` and `parse_loop_none_found` describe the loop of `parseTxtRecords` by the first
valid versioned value and by the diagnostics of the values before it. `parsed_ignored_iff` says
that exactly the values without a version marker are ignored.
-/

namespace AgentResolver

open JavaScript

/-- The value carries one of the two version markers. -/
def isVersioned (value : JSString) : Bool :=
  (hnsAgentMatch value).isSome || (metadataPrefixMatch value).isSome

/-- The value is a HeadlessProfile bridge record. -/
def isBridge (value : JSString) : Bool := (getHeadlessProfileKey value).isSome

variable {json : Json}

/-- The identity of a valid versioned value. -/
def foundIdentity (json : Json) (value : JSString) : Option Identity :=
  match parseMetadataValue json value with
  | .found identity => some identity
  | _ => none

/-- The entry a value adds to `malformed`. -/
def malformedDiagnostic (json : Json) (value : JSString) : Option Diagnostic :=
  match parseMetadataValue json value with
  | .malformed message => some ⟨message, value⟩
  | _ => none

/-- The entry a value adds to `unsupported`. -/
def unsupportedDiagnostic (json : Json) (value : JSString) : Option Diagnostic :=
  match parseMetadataValue json value with
  | .unsupported message => some ⟨message, value⟩
  | _ => none

theorem malformed_diagnostic_record {value : JSString} {diagnostic : Diagnostic}
    (h : malformedDiagnostic json value = some diagnostic) : diagnostic.record = value := by
  unfold malformedDiagnostic at h
  split at h <;> cases h
  rfl

theorem unsupported_diagnostic_record {value : JSString} {diagnostic : Diagnostic}
    (h : unsupportedDiagnostic json value = some diagnostic) : diagnostic.record = value := by
  unfold unsupportedDiagnostic at h
  split at h <;> cases h
  rfl

/-! ## Versioned and ignored values -/

/-- A value that starts with the supported prefix matches the general one. -/
theorem metadata_prefix_match_of_starts_with {value : JSString}
    (h : startsWith value metadataPrefix) : (metadataPrefixMatch value).isSome := by
  obtain ⟨payload, rfl⟩ := List.isPrefixOf_iff_prefix.mp h
  have hparts : metadataPrefix ++ payload = text "agent-identity:v" ++ (text "1=" ++ payload) :=
    append_parts (text "1=") (by decide) payload
  have hstart : startsWith (metadataPrefix ++ payload) (text "agent-identity:v") :=
    List.isPrefixOf_iff_prefix.mpr ⟨text "1=" ++ payload, hparts.symm⟩
  have hdrop : (metadataPrefix ++ payload).drop (text "agent-identity:v").length =
      unit '1' :: unit '=' :: payload := by
    rw [hparts, List.drop_left]
    rfl
  unfold metadataPrefixMatch
  rw [if_pos hstart, hdrop]
  simp [List.takeWhile, unit]

theorem validation_result_ne_ignored (validation : Validation) :
    validationResult validation ParsedValue.found ParsedValue.malformed ≠ .ignored := by
  unfold validationResult
  split <;> simp

/-- The values that are ignored are exactly those that are not versioned. -/
theorem parsed_ignored_iff {value : JSString} :
    parseMetadataValue json value = .ignored ↔ isVersioned value = false := by
  unfold parseMetadataValue isVersioned
  cases hhns : hnsAgentMatch value with
  | some version =>
      simp only [Option.isSome_some, Bool.true_or, Bool.true_eq_false, iff_false]
      split
      · simp
      · split
        · simp
        · exact validation_result_ne_ignored _
  | none =>
      simp only [Option.isSome_none, Bool.false_or]
      by_cases hstart : startsWith value metadataPrefix
      · have hmatch := metadata_prefix_match_of_starts_with hstart
        simp only [hstart, hmatch, Bool.not_true, Bool.false_eq_true, if_false, Bool.true_eq_false,
          iff_false]
        split
        · simp
        · split
          · simp
          · exact validation_result_ne_ignored _
      · cases hmatch : metadataPrefixMatch value <;> simp [hstart]

theorem versioned_of_found {value : JSString} (h : (foundIdentity json value).isSome) :
    isVersioned value := by
  by_contra hversioned
  have hignored : parseMetadataValue json value = .ignored :=
    parsed_ignored_iff.mpr (by simpa using hversioned)
  simp [foundIdentity, hignored] at h

theorem versioned_of_malformed {value : JSString} (h : (malformedDiagnostic json value).isSome) :
    isVersioned value := by
  by_contra hversioned
  have hignored : parseMetadataValue json value = .ignored :=
    parsed_ignored_iff.mpr (by simpa using hversioned)
  simp [malformedDiagnostic, hignored] at h

theorem versioned_of_unsupported {value : JSString}
    (h : (unsupportedDiagnostic json value).isSome) : isVersioned value := by
  by_contra hversioned
  have hignored : parseMetadataValue json value = .ignored :=
    parsed_ignored_iff.mpr (by simpa using hversioned)
  simp [unsupportedDiagnostic, hignored] at h

/-- A versioned value that is not valid has a diagnostic. -/
theorem diagnostic_of_versioned {value : JSString} (h : isVersioned value)
    (hnot : foundIdentity json value = none) :
    (malformedDiagnostic json value).isSome ∨ (unsupportedDiagnostic json value).isSome := by
  have hignored : parseMetadataValue json value ≠ .ignored :=
    fun heq => by simp [parsed_ignored_iff.mp heq] at h
  unfold foundIdentity at hnot
  unfold malformedDiagnostic unsupportedDiagnostic
  cases hparsed : parseMetadataValue json value with
  | found identity => simp [hparsed] at hnot
  | malformed message => simp
  | unsupported message => simp
  | ignored => exact absurd hparsed hignored

/-! ## The loop -/

/-- The result object after values none of which is valid versioned metadata. -/
def tally (json : Json) (values : List JSString) (result : ParseResult) : ParseResult :=
  { result with
    ignored := result.ignored ++ values.filter fun value => !isVersioned value
    malformed := result.malformed ++ values.filterMap (malformedDiagnostic json)
    unsupported := result.unsupported ++ values.filterMap (unsupportedDiagnostic json) }

/-- A versioned value that is not valid leaves a diagnostic in the accumulator. -/
theorem tally_diagnostic {values : List JSString} {result : ParseResult}
    (hversioned : ∃ value ∈ values, isVersioned value)
    (hnot : ∀ value ∈ values, foundIdentity json value = none) :
    ¬ ((tally json values result).malformed = [] ∧
      (tally json values result).unsupported = []) := by
  obtain ⟨value, hvalue, hmarked⟩ := hversioned
  simp only [tally, List.append_eq_nil_iff, List.filterMap_eq_nil_iff]
  rintro ⟨⟨_, hmalformed⟩, _, hunsupported⟩
  rcases diagnostic_of_versioned hmarked (hnot value hvalue) with hsome | hsome
  · simp [hmalformed value hvalue] at hsome
  · simp [hunsupported value hvalue] at hsome

theorem tally_nil (result : ParseResult) : tally json [] result = result := by
  simp [tally]

/-- One iteration on a value that is not valid versioned metadata. -/
theorem parse_loop_step {values rest : List JSString} {value : JSString} {result : ParseResult}
    (h : foundIdentity json value = none) :
    parseLoop json values (value :: rest) result =
      parseLoop json values rest (tally json [value] result) := by
  unfold foundIdentity at h
  rw [parseLoop]
  cases hparsed : parseMetadataValue json value with
  | found identity => simp [hparsed] at h
  | malformed message =>
      have hsome : (malformedDiagnostic json value).isSome := by
        simp [malformedDiagnostic, hparsed]
      have hversioned := versioned_of_malformed hsome
      simp [tally, malformedDiagnostic, unsupportedDiagnostic, hparsed, hversioned]
  | unsupported message =>
      have hsome : (unsupportedDiagnostic json value).isSome := by
        simp [unsupportedDiagnostic, hparsed]
      have hversioned := versioned_of_unsupported hsome
      simp [tally, malformedDiagnostic, unsupportedDiagnostic, hparsed, hversioned]
  | ignored =>
      have hversioned := parsed_ignored_iff.mp hparsed
      simp [tally, malformedDiagnostic, unsupportedDiagnostic, hparsed, hversioned]

theorem tally_cons (value : JSString) (rest : List JSString) (result : ParseResult) :
    tally json rest (tally json [value] result) = tally json (value :: rest) result := by
  simp only [tally, List.append_assoc]
  congr 2 <;> simp [List.filterMap_cons, List.filter_cons] <;> split <;> simp

/-- The loop over a list that starts with values none of which is valid. -/
theorem parse_loop_append {values before rest : List JSString} {result : ParseResult}
    (h : ∀ value ∈ before, foundIdentity json value = none) :
    parseLoop json values (before ++ rest) result =
      parseLoop json values rest (tally json before result) := by
  induction before generalizing result with
  | nil => rw [tally_nil, List.nil_append]
  | cons value before ih =>
      rw [List.cons_append, parse_loop_step (h value (by simp)),
        ih (fun v hv => h v (List.mem_cons_of_mem _ hv)), tally_cons]

/-- The loop when no value is valid versioned metadata. -/
theorem parse_loop_none_found {values rest : List JSString} {result : ParseResult}
    (h : ∀ value ∈ rest, foundIdentity json value = none) :
    parseLoop json values rest result = finishParse values (tally json rest result) := by
  have happend : parseLoop json values (rest ++ []) result =
      parseLoop json values [] (tally json rest result) := parse_loop_append h
  rwa [List.append_nil] at happend

/-- The loop returns at the first valid versioned value. -/
theorem parse_loop_found {values before after : List JSString} {value : JSString}
    {identity : Identity} {result : ParseResult}
    (h : ∀ value ∈ before, foundIdentity json value = none)
    (hfound : foundIdentity json value = some identity) :
    parseLoop json values (before ++ value :: after) result =
      { tally json before result with
        status := .found, identity := some identity, record := some value } := by
  rw [parse_loop_append h, parseLoop]
  unfold foundIdentity at hfound
  split at hfound
  · rename_i hparsed
    cases hfound
    rw [hparsed]
  · cases hfound

/-- Either no value of a list is valid, or the list splits at the first valid one. -/
theorem first_found (json : Json) (values : List JSString) :
    (∀ value ∈ values, foundIdentity json value = none) ∨
      ∃ before value after identity, values = before ++ value :: after ∧
        (∀ value ∈ before, foundIdentity json value = none) ∧
        foundIdentity json value = some identity := by
  induction values with
  | nil => exact Or.inl (by simp)
  | cons value rest ih =>
      cases hvalue : foundIdentity json value with
      | some identity => exact Or.inr ⟨[], value, rest, identity, rfl, by simp, hvalue⟩
      | none =>
          rcases ih with hnone | ⟨before, found, after, identity, rfl, hbefore, hfound⟩
          · exact Or.inl (by simpa [hvalue] using hnone)
          · exact Or.inr ⟨value :: before, found, after, identity, rfl,
              by simpa [hvalue] using hbefore, hfound⟩

/-! ## Statuses -/

/-- The result of a parse has an identity exactly when its status is `found`. -/
theorem finish_parse_identity {values : List JSString} {result : ParseResult}
    (hstatus : result.status = .noCompatibleRecords) (hidentity : result.identity = none) :
    (finishParse values result).status = .found ↔ (finishParse values result).identity.isSome := by
  simp only [finishParse]
  generalize (if (result.malformed.isEmpty && result.unsupported.isEmpty) = true then
    parseHeadlessProfileRecords values else none) = bridge
  cases bridge with
  | some bridge => cases bridge <;> simp [hidentity]
  | none =>
      dsimp only
      split
      · simp [hidentity]
      · split <;> simp [hidentity, hstatus]

theorem parse_found_iff_identity {records : List TxtRecord} :
    (parseTxtRecords json records).status = .found ↔
      (parseTxtRecords json records).identity.isSome := by
  unfold parseTxtRecords
  rcases first_found json (records.map joinTxtRecord) with
    hnone | ⟨before, value, after, identity, hvalues, hbefore, hfound⟩
  · rw [parse_loop_none_found hnone]
    exact finish_parse_identity rfl rfl
  · simp only [hvalues]
    rw [parse_loop_found hbefore hfound]
    simp

end AgentResolver
