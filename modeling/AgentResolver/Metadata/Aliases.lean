import AgentResolver.Metadata.Notations
import AgentResolver.Metadata.SchemaLemmas

/-!
# Alias keys

The parser of compact payloads takes `skillPath`, `protocol` and `capability` for the keys `skill`,
`protocols` and `capabilities`; the validator of objects takes the first two. The two readers are
unrelated, so each pair is followed through both: `validate_alias` for objects and
`key_value_alias` for compact payloads. `AliasRecords` has the records of every notation, and
`alias_records_agree` is the result.
-/

namespace AgentResolver

open JavaScript

/-- An alias and its canonical key, as the compact parser knows them. -/
inductive AliasPair : JSString → JSString → Prop where
  | skill : AliasPair (text "skillPath") (text "skill")
  | protocols : AliasPair (text "protocol") (text "protocols")
  | capabilities : AliasPair (text "capability") (text "capabilities")

/-! ## Objects -/

/-- An object with a value under the alias only, and one with it under the canonical key only. -/
structure SwapsKey (aliasKey canonicalKey : JSString) (read read' : JSString → Option JsonValue) :
    Prop where
  value : read aliasKey = read' canonicalKey
  canonical_absent : read canonicalKey = none
  alias_absent : read' aliasKey = none
  others : ∀ key, key ≠ aliasKey → key ≠ canonicalKey → read key = read' key

/-- The keys that the validator reads besides string fields and protocols. -/
def plainKeys : List JSString :=
  [text "version", text "v", text "ready", text "capabilities", text "extra"]

theorem present_idempotent (value : Option JsonValue) :
    present (present value) = present value := by
  cases value with
  | none => rfl
  | some value => cases value <;> rfl

/-- The loop over string fields only sees which values are present. -/
theorem collect_fields_congr {read read' : JSString → Option JsonValue}
    {label : JSString → JSString} {fields : List JSString}
    (h : ∀ field ∈ fields, present (read field) = present (read' field)) :
    collectStringFields read label fields = collectStringFields read' label fields := by
  induction fields with
  | nil => rfl
  | cons field rest ih =>
      rw [collectStringFields, collectStringFields, h field List.mem_cons_self,
        ih fun f hf => h f (List.mem_cons_of_mem _ hf)]

theorem normalize_entries_congr {spec : EntryKind} {value value' : Option JsonValue}
    (h : present value = present value') :
    normalizeEntries spec value = normalizeEntries spec value' := by
  rw [normalizeEntries, normalizeEntries, h]

/-- The validator reads objects alike that agree on what it makes of their properties. -/
theorem validate_congr {read read' : JSString → Option JsonValue}
    (hsame : ∀ key ∈ plainKeys, read key = read' key)
    (hfields : ∀ field ∈ optionalStringFields,
      present (stringSource read field) = present (stringSource read' field))
    (hprotocols : present ((present (read (text "protocols"))).or (read (text "protocol"))) =
      present ((present (read' (text "protocols"))).or (read' (text "protocol")))) :
    validateProperties read = validateProperties read' := by
  have hstrings : collectStringFields (fun field => if field = text "skill" then
      (present (read field)).or (read (text "skillPath")) else read field) id
        optionalStringFields = collectStringFields (fun field => if field = text "skill" then
          (present (read' field)).or (read' (text "skillPath")) else read' field) id
            optionalStringFields := collect_fields_congr hfields
  have hlist : normalizeProtocols ((present (read (text "protocols"))).or
      (read (text "protocol"))) = normalizeProtocols ((present (read' (text "protocols"))).or
        (read' (text "protocol"))) := normalize_entries_congr hprotocols
  have hversion := hsame (text "version") (by decide)
  have hv := hsame (text "v") (by decide)
  have hready := hsame (text "ready") (by decide)
  have hcapabilities := hsame (text "capabilities") (by decide)
  have hextra := hsame (text "extra") (by decide)
  simp only [validateProperties, hstrings, hlist, hversion, hv, hready, hcapabilities, hextra]

/-- The validator reads `skillPath` for an absent `skill`. -/
theorem validate_skill_path {read read' : JSString → Option JsonValue}
    (h : SwapsKey (text "skillPath") (text "skill") read read') :
    validateProperties read = validateProperties read' := by
  refine validate_congr ?_ ?_ ?_
  · intro key hkey
    have hne : key ≠ text "skillPath" ∧ key ≠ text "skill" :=
      (by decide : ∀ key ∈ plainKeys, key ≠ text "skillPath" ∧ key ≠ text "skill") key hkey
    exact h.others key hne.1 hne.2
  · intro field hfield
    rw [stringSource, stringSource]
    by_cases hskill : field = text "skill"
    · rw [if_pos hskill, if_pos hskill, hskill, h.canonical_absent, h.value, h.alias_absent,
        Option.or_none, present_idempotent]
      rfl
    · have hne : field ≠ text "skillPath" :=
        (by decide : ∀ field ∈ optionalStringFields, field ≠ text "skillPath") field hfield
      rw [if_neg hskill, if_neg hskill, h.others field hne hskill]
  · rw [h.others (text "protocols") (by decide) (by decide),
      h.others (text "protocol") (by decide) (by decide)]

/-- The validator reads `protocol` for absent `protocols`. -/
theorem validate_protocol {read read' : JSString → Option JsonValue}
    (h : SwapsKey (text "protocol") (text "protocols") read read') :
    validateProperties read = validateProperties read' := by
  refine validate_congr ?_ ?_ ?_
  · intro key hkey
    have hne : key ≠ text "protocol" ∧ key ≠ text "protocols" :=
      (by decide : ∀ key ∈ plainKeys, key ≠ text "protocol" ∧ key ≠ text "protocols") key hkey
    exact h.others key hne.1 hne.2
  · intro field hfield
    have hne : field ≠ text "protocol" ∧ field ≠ text "protocols" :=
      (by decide : ∀ field ∈ optionalStringFields,
        field ≠ text "protocol" ∧ field ≠ text "protocols") field hfield
    rw [stringSource, stringSource, h.others field hne.1 hne.2,
      h.others (text "skillPath") (by decide) (by decide)]
  · rw [h.canonical_absent, h.value, h.alias_absent, Option.or_none, present_idempotent]
    rfl

/-! ## Segments -/

variable {aliasKey canonicalKey : JSString}

/-- A key and a value as a segment: trimming keeps the key and the start of the value. -/
theorem trim_segment {key : JSString} (hne : key ≠ [])
    (hvisible : ∀ c ∈ key, isWhitespace c = false) (value : JSString) :
    ∃ kept, trim (segment (key, value)) = segment (key, kept) ∧ trim kept = trim value := by
  have hspace : ∀ c ∈ value.rtakeWhile isWhitespace, isWhitespace c :=
    fun c hc => List.mem_rtakeWhile_imp hc
  have hvalue : value = value.rdropWhile isWhitespace ++ value.rtakeWhile isWhitespace :=
    List.rdropWhile_append_rtakeWhile.symm
  refine ⟨value.rdropWhile isWhitespace, ?_, ?_⟩
  · have hsegment : segment (key, value) =
        segment (key, value.rdropWhile isWhitespace) ++ value.rtakeWhile isWhitespace := by
      conv_lhs => rw [hvalue]
      rw [segment, segment, List.append_assoc, List.cons_append]
    rw [hsegment, trim_append_end hspace]
    refine trimmed_of_head_last ?_ ?_
    · intro c hc
      obtain ⟨d, rest, hkey⟩ := List.exists_cons_of_ne_nil hne
      rw [segment, hkey] at hc
      obtain rfl := Option.some.inj hc
      exact hvisible d (by simp [hkey])
    · intro c hc
      rw [segment, List.getLast?_append_of_ne_nil _ (by simp)] at hc
      by_cases hkept : value.rdropWhile isWhitespace = []
      · rw [hkept] at hc
        have hc : some (unit '=') = some c := hc
        obtain rfl := Option.some.inj hc
        decide
      · obtain ⟨d, rest, hcons⟩ := List.exists_cons_of_ne_nil hkept
        rw [hcons, List.getLast?_cons_cons, ← hcons, List.getLast?_eq_some_getLast hkept] at hc
        obtain rfl := Option.some.inj hc
        simpa using List.rdropWhile_last_not isWhitespace value hkept
  · conv_rhs => rw [hvalue]
    rw [trim_append_end hspace]

/-- A segment is read by its key and its trimmed value. -/
theorem apply_segment_of_key {key value : JSString} (hne : key ≠ [])
    (hvisible : ∀ c ∈ key, isWhitespace c = false) (hequals : unit '=' ∉ key)
    (metadata : Properties JsonValue) :
    applySegment metadata (segment (key, value)) =
      if key.isEmpty ∨ key = text "hns-agent" then metadata
      else if key = text "protocol" ∨ key = text "protocols" then
        setProperty metadata (text "protocols") (.string (trim value))
      else if key = text "capability" ∨ key = text "capabilities" then
        setProperty metadata (text "capabilities") (.string (trim value))
      else if key = text "skill" ∨ key = text "skillPath" then
        setProperty metadata (text "skill") (.string (trim value))
      else if key = text "__proto__" then metadata
      else setProperty metadata key (.string (trim value)) := by
  obtain ⟨kept, htrim, hkept⟩ := trim_segment hne hvisible value
  have hindex : indexOf (segment (key, kept)) (unit '=') = some key.length :=
    index_of_append hequals
  have hkey : trim ((segment (key, kept)).take key.length) = key := by
    rw [segment, List.take_left]
    exact trimmed_of_no_whitespace hvisible
  have hvalue : trim ((segment (key, kept)).drop (key.length + 1)) = trim value := by
    rw [segment, List.append_cons, List.drop_left' (by simp), hkept]
  simp only [applySegment, htrim, hindex, hkey, hvalue]

/-- A segment with an alias sets the canonical key, like the one with that key. -/
theorem apply_segment_alias (h : AliasPair aliasKey canonicalKey) (value : JSString)
    (metadata : Properties JsonValue) :
    applySegment metadata (segment (aliasKey, value)) =
      applySegment metadata (segment (canonicalKey, value)) := by
  cases h with
  | skill =>
      rw [apply_segment_of_key (by decide) (by decide) (by decide),
        apply_segment_of_key (by decide) (by decide) (by decide)]
      rfl
  | protocols =>
      rw [apply_segment_of_key (by decide) (by decide) (by decide),
        apply_segment_of_key (by decide) (by decide) (by decide)]
      rfl
  | capabilities =>
      rw [apply_segment_of_key (by decide) (by decide) (by decide),
        apply_segment_of_key (by decide) (by decide) (by decide)]
      rfl

/-! ## Compact payloads -/

/-- A field among other segments, joined by semicolons. -/
def fieldsText (before : List JSString) (field : JSString × JSString) (after : List JSString) :
    JSString := join (before ++ segment field :: after) [unit ';']

/-- Segments without semicolons around a field. -/
structure ArePlain (before : List JSString) (value : JSString) (after : List JSString) : Prop where
  before : ∀ piece ∈ before, unit ';' ∉ piece
  value : unit ';' ∉ value
  after : ∀ piece ∈ after, unit ';' ∉ piece

/-- Segments are read trimmed, so a payload may be trimmed first. -/
theorem key_value_trim (payload : JSString) (base : Properties JsonValue) :
    parseKeyValuePayload (trim payload) base = parseKeyValuePayload payload base := by
  have hmap : ∀ segments : List JSString,
      segments.foldl applySegment base = (segments.map trim).foldl applySegment base := by
    intro segments
    rw [List.foldl_map]
    refine congrArg (fun step => List.foldl step base segments) ?_
    funext metadata piece
    unfold applySegment
    rw [trim_trim]
  rw [parseKeyValuePayload, parseKeyValuePayload, hmap (split (trim payload) (unit ';')),
    split_trim (by decide : isWhitespace (unit ';') = false), ← hmap]

variable {before after : List JSString} {value : JSString}

theorem split_fields_text {key : JSString} (hkey : unit ';' ∉ key)
    (hplain : ArePlain before value after) :
    split (fieldsText before (key, value) after) (unit ';') =
      before ++ segment (key, value) :: after := by
  refine List.splitOn_intercalate _ ?_ (by simp)
  intro piece hpiece
  rcases List.mem_append.mp hpiece with hpiece | hpiece
  · exact hplain.before piece hpiece
  · rcases List.mem_cons.mp hpiece with rfl | hpiece
    · rw [segment, List.mem_append, List.mem_cons]
      rintro (hmem | hmem | hmem)
      · exact hkey hmem
      · exact absurd hmem (by decide)
      · exact hplain.value hmem
    · exact hplain.after piece hpiece

theorem AliasPair.plain (h : AliasPair aliasKey canonicalKey) :
    unit ';' ∉ aliasKey ∧ unit ';' ∉ canonicalKey := by
  cases h with
  | skill => decide
  | protocols => decide
  | capabilities => decide

/-- Compact payloads with the alias and with the canonical key give the same metadata. -/
theorem key_value_alias (h : AliasPair aliasKey canonicalKey) (hplain : ArePlain before value after)
    (base : Properties JsonValue) :
    parseKeyValuePayload (fieldsText before (aliasKey, value) after) base =
      parseKeyValuePayload (fieldsText before (canonicalKey, value) after) base := by
  rw [parseKeyValuePayload, parseKeyValuePayload, split_fields_text h.plain.1 hplain,
    split_fields_text h.plain.2 hplain, List.foldl_append, List.foldl_append, List.foldl_cons,
    List.foldl_cons, apply_segment_alias h]

/-- The field stands in the payload. -/
theorem equals_mem_fields_text (before : List JSString) (field : JSString × JSString)
    (after : List JSString) : unit '=' ∈ fieldsText before field after := by
  have hfield : unit '=' ∈ segment field := List.mem_append_right _ List.mem_cons_self
  induction before with
  | nil =>
      rw [fieldsText, List.nil_append, join]
      cases after with
      | nil => rwa [List.intercalate_singleton]
      | cons next rest =>
          rw [List.intercalate_cons_cons, List.append_assoc]
          exact List.mem_append_left _ hfield
  | cons piece rest ih =>
      rw [fieldsText, join, List.cons_append, List.intercalate_cons_of_ne_nil (by simp)]
      exact List.mem_append_right _ ih

/-- A compact payload with a field is not blank. -/
theorem trim_fields_text_ne (before : List JSString) (field : JSString × JSString)
    (after : List JSString) : trim (fieldsText before field after) ≠ [] := by
  have hmem := equals_mem_fields_text before field after
  have htrim : (unit '=' ∈ trim (fieldsText before field after)) =
      (unit '=' ∈ fieldsText before field after) := by
    refine @trim_invariant _ (fun s => unit '=' ∈ s) ?_ ?_ _
    · intro c s hc
      have hne : unit '=' ≠ c := by
        rintro rfl
        exact absurd hc (by decide)
      simp [hne]
    · intro c s hc
      have hne : unit '=' ≠ c := by
        rintro rfl
        exact absurd hc (by decide)
      simp [hne]
  rw [← htrim] at hmem
  exact List.ne_nil_of_mem hmem

/-! ## The marker of `hns-agent` -/

/-- Whitespace in front of a segment is dropped up to the semicolon at most. -/
theorem drop_while_segment (start rest : JSString) :
    (start ++ unit ';' :: rest).dropWhile isWhitespace =
      start.dropWhile isWhitespace ++ unit ';' :: rest := by
  rw [List.dropWhile_append]
  split
  · rename_i hstart
    rw [List.isEmpty_iff.mp hstart, List.dropWhile_cons_of_neg (by decide), List.nil_append]
  · rfl

/-- A version ends at the semicolon at the latest. -/
theorem take_while_segment (start rest : JSString) :
    (start ++ unit ';' :: rest).takeWhile (fun c => !(c == unit ';' || isWhitespace c)) =
      start.takeWhile fun c => !(c == unit ';' || isWhitespace c) := by
  rw [List.takeWhile_append]
  split
  · rename_i hall
    rw [List.takeWhile_cons_of_neg (by simp), List.append_nil]
    exact ((List.takeWhile_prefix _).eq_of_length hall).symm
  · rfl

/-- A first segment that is shorter than the name of the marker. -/
theorem hns_agent_match_short {marker : JSString} (h : marker.length < (text "hns-agent").length)
    (rest : JSString) : hnsAgentMatch (marker ++ unit ';' :: rest) = none := by
  have hmem : unit ';' ∈ (marker ++ unit ';' :: rest).take (text "hns-agent").length := by
    obtain ⟨more, hmore⟩ := Nat.exists_eq_add_of_lt h
    rw [hmore, Nat.add_assoc, List.take_length_add_append, List.take_succ_cons]
    exact List.mem_append_right _ List.mem_cons_self
  rw [hnsAgentMatch, if_neg]
  intro hname
  have hlower : asciiLower (unit ';') ∈ text "hns-agent" := hname ▸ List.mem_map_of_mem hmem
  exact absurd hlower (by decide)

/-- The version of an `hns-agent` record is read in its first segment. -/
theorem hns_agent_match_marker (marker rest rest' : JSString) :
    hnsAgentMatch (marker ++ unit ';' :: rest) = hnsAgentMatch (marker ++ unit ';' :: rest') := by
  by_cases hlength : (text "hns-agent").length ≤ marker.length
  · simp only [hnsAgentMatch, List.take_append_of_le_length hlength,
      List.drop_append_of_le_length hlength, drop_while_segment]
    cases (marker.drop (text "hns-agent").length).dropWhile isWhitespace with
    | nil => rfl
    | cons c start =>
        simp only [List.cons_append, drop_while_segment]
        cases start.dropWhile isWhitespace with
        | nil => rfl
        | cons v tail => simp only [List.cons_append, take_while_segment]
  · rw [hns_agent_match_short (Nat.lt_of_not_le hlength),
      hns_agent_match_short (Nat.lt_of_not_le hlength)]

/-! ## Records -/

/-- The payload is JSON text for the object. -/
structure IsJsonObject (json : Json) (payload : JSString) (members : Properties JsonValue) :
    Prop where
  brace : startsWith (trim payload) [unit '\x7b'] = true
  parsed : json.parse (trim payload) = .ok (.object members)

/-- The records that use only the alias, or only the canonical key, for a value: JSON objects and
the two compact notations. -/
inductive AliasRecords (json : Json) : JSString → JSString → Prop where
  | object {aliasKey canonicalKey payload payload' : JSString}
      {members members' : Properties JsonValue} :
      AliasPair aliasKey canonicalKey → canonicalKey ≠ text "capabilities" →
      SwapsKey aliasKey canonicalKey (getProperty members) (getProperty members') →
      IsJsonObject json payload members → IsJsonObject json payload' members' →
      AliasRecords json (metadataPrefix ++ payload) (metadataPrefix ++ payload')
  | compact {aliasKey canonicalKey value : JSString} {before after : List JSString} :
      AliasPair aliasKey canonicalKey → ArePlain before value after →
      startsWith (trim (fieldsText before (aliasKey, value) after)) [unit '\x7b'] = false →
      startsWith (trim (fieldsText before (canonicalKey, value) after)) [unit '\x7b'] = false →
      AliasRecords json (metadataPrefix ++ fieldsText before (aliasKey, value) after)
        (metadataPrefix ++ fieldsText before (canonicalKey, value) after)
  | hnsAgent {aliasKey canonicalKey marker value : JSString} {before after : List JSString} :
      AliasPair aliasKey canonicalKey → ArePlain before value after → unit ';' ∉ marker →
      (hnsAgentMatch (marker ++ [unit ';'])).isSome →
      AliasRecords json (marker ++ unit ';' :: fieldsText before (aliasKey, value) after)
        (marker ++ unit ';' :: fieldsText before (canonicalKey, value) after)

/-! ## Parsing both records -/

variable {json : Json}

/-- A JSON payload is read as its object. -/
theorem IsJsonObject.payload {payload : JSString} {members : Properties JsonValue}
    (h : IsJsonObject json payload members) :
    parseAgentIdentityPayload json payload = .ok (.object members) := by
  have hne : (trim payload).isEmpty = false := by
    cases htrim : trim payload with
    | nil =>
        have hbrace := h.brace
        rw [htrim] at hbrace
        cases hbrace
    | cons c rest => rfl
  simp only [parseAgentIdentityPayload, hne, h.brace, Bool.false_eq_true, if_false, if_true,
    h.parsed]
  rfl

/-- A compact payload is read segment by segment. -/
theorem fields_text_payload {field : JSString × JSString}
    (h : startsWith (trim (fieldsText before field after)) [unit '\x7b'] = false) :
    parseAgentIdentityPayload json (fieldsText before field after) =
      .ok (.object (parseKeyValuePayload (fieldsText before field after) versionOne)) := by
  have hne : (trim (fieldsText before field after)).isEmpty = false := by
    simpa using trim_fields_text_ne before field after
  simp only [parseAgentIdentityPayload, hne, h, Bool.false_eq_true, if_false, key_value_trim]

/-- A record that is too long is malformed, whatever its payload. -/
theorem metadata_record_long {payload : JSString}
    (h : ¬ (metadataPrefix ++ payload).length ≤ maxTxtValueLength) :
    parseMetadataValue json (metadataPrefix ++ payload) =
      .malformed (text "metadata TXT value is too long") := by
  obtain ⟨hnone, hstart⟩ := metadata_notation_markers payload
  simp only [parseMetadataValue, hnone, hstart, Bool.not_true, Bool.false_eq_true, if_false,
    if_pos (Nat.lt_of_not_le h), gt_iff_lt]

/-- Payloads with the same validation make records that are parsed alike, if the limit on the
length admits both or neither. -/
theorem metadata_record_congr {payload payload' : JSString} {value value' : JsonValue}
    (hlength : (metadataPrefix ++ payload).length ≤ maxTxtValueLength ↔
      (metadataPrefix ++ payload').length ≤ maxTxtValueLength)
    (hpayload : parseAgentIdentityPayload json payload = .ok value)
    (hpayload' : parseAgentIdentityPayload json payload' = .ok value')
    (hvalidate : validateAgentIdentityMetadata value = validateAgentIdentityMetadata value') :
    parseMetadataValue json (metadataPrefix ++ payload) =
      parseMetadataValue json (metadataPrefix ++ payload') := by
  by_cases hshort : (metadataPrefix ++ payload).length ≤ maxTxtValueLength
  · rw [metadata_notation_parse hshort, metadata_notation_parse (hlength.mp hshort), hpayload,
      hpayload']
    simp only [hvalidate]
  · rw [metadata_record_long hshort, metadata_record_long fun h => hshort (hlength.mpr h)]

/-- The same for `hns-agent` records, whose segments are read with the marker. -/
theorem hns_agent_record_congr {record record' version : JSString}
    (hlength : record.length ≤ maxTxtValueLength ↔ record'.length ≤ maxTxtValueLength)
    (hmatch : hnsAgentMatch record = some version) (hmatch' : hnsAgentMatch record' = some version)
    (hsame : parseKeyValuePayload record versionOne = parseKeyValuePayload record' versionOne) :
    parseMetadataValue json record = parseMetadataValue json record' := by
  have hlong : record.length > maxTxtValueLength ↔ record'.length > maxTxtValueLength := by
    rw [gt_iff_lt, gt_iff_lt, ← Nat.not_le, ← Nat.not_le, hlength]
  simp only [parseMetadataValue, hmatch, hmatch', hlong, hsame]

/-- The records with the alias and with the canonical key are versioned and parsed alike, if the
limit on the length admits both or neither. -/
theorem AliasRecords.parse_eq {record record' : JSString} (h : AliasRecords json record record')
    (hlength : record.length ≤ maxTxtValueLength ↔ record'.length ≤ maxTxtValueLength) :
    isVersioned record = true ∧ isVersioned record' = true ∧
      parseMetadataValue json record = parseMetadataValue json record' := by
  cases h with
  | @object _ _ payload payload' _ _ hpair hkey hswap hobject hobject' =>
      refine ⟨(notations_versioned _).1, (notations_versioned _).1,
        metadata_record_congr hlength hobject.payload hobject'.payload ?_⟩
      cases hpair with
      | skill => exact validate_skill_path hswap
      | protocols => exact validate_protocol hswap
      | capabilities => exact absurd rfl hkey
  | compact hpair hplain hbrace hbrace' =>
      refine ⟨(notations_versioned _).1, (notations_versioned _).1,
        metadata_record_congr hlength (fields_text_payload hbrace) (fields_text_payload hbrace') ?_⟩
      rw [key_value_alias hpair hplain]
  | @hnsAgent aliasKey canonicalKey marker value before after hpair hplain hmarker hmatch =>
      obtain ⟨version, hversion⟩ := Option.isSome_iff_exists.mp hmatch
      have hrecord : ∀ rest, hnsAgentMatch (marker ++ unit ';' :: rest) = some version := by
        intro rest
        rw [hns_agent_match_marker marker rest [], hversion]
      have hversioned : ∀ rest, isVersioned (marker ++ unit ';' :: rest) = true := by
        intro rest
        rw [isVersioned, hrecord, Option.isSome_some, Bool.true_or]
      refine ⟨hversioned _, hversioned _,
        hns_agent_record_congr hlength (hrecord _) (hrecord _) ?_⟩
      rw [parseKeyValuePayload, parseKeyValuePayload, split_append hmarker, split_append hmarker]
      exact key_value_alias hpair hplain (applySegment versionOne marker)

/-- Records that use an alias and records that use its canonical key have the same status and the
same identity, if the limit on the length admits both or neither. -/
theorem alias_records_agree {json : Json} {record record' : JSString}
    (h : AliasRecords json record record')
    (hlength : record.length ≤ maxTxtValueLength ↔ record'.length ≤ maxTxtValueLength)
    {txt txt' : TxtRecord} (htxt : joinTxtRecord txt = record)
    (htxt' : joinTxtRecord txt' = record') :
    outcome (parseTxtRecords json [txt]) = outcome (parseTxtRecords json [txt']) := by
  obtain ⟨hversioned, hversioned', hparse⟩ := h.parse_eq hlength
  subst htxt htxt'
  rw [parse_single hversioned, parse_single hversioned', hparse]

/-- The agreement for `protocol` after the marker of an `hns-agent` record. -/
theorem alias_records_agree_example :
    outcome (parseTxtRecords .rejecting [.single (text "hns-agent=v1;id=a;protocol=b")]) =
      outcome (parseTxtRecords .rejecting [.single (text "hns-agent=v1;id=a;protocols=b")]) := by
  have h : AliasRecords .rejecting
      (text "hns-agent=v1" ++ unit ';' ::
        fieldsText [text "id=a"] (text "protocol", text "b") [])
      (text "hns-agent=v1" ++ unit ';' ::
        fieldsText [text "id=a"] (text "protocols", text "b") []) :=
    .hnsAgent .protocols ⟨by decide, by decide, by decide⟩ (by decide) (by decide)
  exact alias_records_agree h (by decide) rfl rfl

/-! ## Records that are not parsed alike -/

/-- `\x7b"version":1,"key":"b"\x7d` with spaces before the closing brace. -/
def keyText (key : JSString) (spaces : Nat) : JSString :=
  text "\x7b\"version\":1,\"" ++ key ++ text "\":\"b\"" ++ List.replicate spaces (unit ' ') ++
    [unit '\x7d']

def keyObject (key : JSString) : Properties JsonValue :=
  versionOne ++ [(key, .string (text "b"))]

/-- The `JSON` object as it reads the texts with two keys. -/
def pairJson (first second : JSString) (spaces : Nat) : Json where
  parse s :=
    if s = keyText first spaces then .ok (.object (keyObject first))
    else if s = keyText second spaces then .ok (.object (keyObject second))
    else .error ⟨text "Unexpected token"⟩
  stringify _ := text "null"

theorem key_text_length (key : JSString) (spaces : Nat) :
    (keyText key spaces).length = key.length + spaces + 20 := by
  have hstart : (text "\x7b\"version\":1,\"").length = 14 := rfl
  have hend : (text "\":\"b\"").length = 5 := rfl
  simp only [keyText, List.length_append, List.length_replicate, List.length_singleton, hstart,
    hend]
  omega

theorem key_text_trim (key : JSString) (spaces : Nat) :
    trim (keyText key spaces) = keyText key spaces := by
  refine trimmed_of_head_last ?_ ?_
  · intro c hc
    obtain rfl : unit '\x7b' = c := Option.some.inj hc
    decide
  · intro c hc
    rw [keyText, List.getLast?_concat] at hc
    obtain rfl := Option.some.inj hc
    decide

/-- Both texts are read as their objects. -/
theorem pair_json_objects {first second : JSString} (h : first.length ≠ second.length)
    (spaces : Nat) :
    IsJsonObject (pairJson first second spaces) (keyText first spaces) (keyObject first) ∧
      IsJsonObject (pairJson first second spaces) (keyText second spaces) (keyObject second) := by
  have hne : keyText second spaces ≠ keyText first spaces := by
    intro heq
    have hlength := congrArg List.length heq
    rw [key_text_length, key_text_length] at hlength
    omega
  refine ⟨⟨?_, ?_⟩, ⟨?_, ?_⟩⟩
  · rw [key_text_trim]
    rfl
  · rw [key_text_trim]
    exact if_pos rfl
  · rw [key_text_trim]
    rfl
  · rw [key_text_trim]
    exact (if_neg hne).trans (if_pos rfl)

/-- What is read from a text with one of the keys. -/
theorem key_record_outcome {json : Json} {key : JSString} {spaces : Nat}
    (hjson : IsJsonObject json (keyText key spaces) (keyObject key))
    (hlength : (metadataPrefix ++ keyText key spaces).length ≤ maxTxtValueLength) :
    outcome (parseTxtRecords json [.single (metadataPrefix ++ keyText key spaces)]) =
      singleOutcome (readObject (keyObject key)) := by
  rw [parse_single (notations_versioned _).1]
  show singleOutcome (parseMetadataValue json (metadataPrefix ++ keyText key spaces)) = _
  rw [metadata_notation_parse hlength, hjson.payload]
  rfl

theorem long_record_outcome {json : Json} {payload : JSString}
    (h : ¬ (metadataPrefix ++ payload).length ≤ maxTxtValueLength) :
    outcome (parseTxtRecords json [.single (metadataPrefix ++ payload)]) =
      (.malformedRecords, none) := by
  rw [parse_single (notations_versioned _).1]
  show singleOutcome (parseMetadataValue json (metadataPrefix ++ payload)) = _
  rw [metadata_record_long h]
  rfl

theorem status_of_outcome {result : ParseResult} {status : MetadataStatus}
    {identity : Option Identity} (h : outcome result = (status, identity)) :
    result.status = status := congrArg Prod.fst h

/-- A record of 4096 units with `protocol` is found and the one with `protocols` is too long. In
JSON objects `capability` is not read at all. -/
theorem alias_records_differ :
    (AliasRecords (pairJson (text "protocol") (text "protocols") 4050)
        (metadataPrefix ++ keyText (text "protocol") 4050)
        (metadataPrefix ++ keyText (text "protocols") 4050) ∧
      (parseTxtRecords (pairJson (text "protocol") (text "protocols") 4050)
        [.single (metadataPrefix ++ keyText (text "protocol") 4050)]).status = .found ∧
      (parseTxtRecords (pairJson (text "protocol") (text "protocols") 4050)
        [.single (metadataPrefix ++ keyText (text "protocols") 4050)]).status =
          .malformedRecords) ∧
    (parseTxtRecords (pairJson (text "capability") (text "capabilities") 0)
      [.single (metadataPrefix ++ keyText (text "capability") 0)]).status = .malformedRecords ∧
    (parseTxtRecords (pairJson (text "capability") (text "capabilities") 0)
      [.single (metadataPrefix ++ keyText (text "capabilities") 0)]).status = .found := by
  obtain ⟨hfirst, hsecond⟩ :=
    @pair_json_objects (text "protocol") (text "protocols") (by decide) 4050
  obtain ⟨hthird, hfourth⟩ :=
    @pair_json_objects (text "capability") (text "capabilities") (by decide) 0
  have hlength : ∀ key spaces, (metadataPrefix ++ keyText key spaces).length =
      key.length + spaces + 38 := by
    intro key spaces
    have hprefix : metadataPrefix.length = 18 := rfl
    rw [List.length_append, key_text_length, hprefix]
    omega
  refine ⟨⟨?_, ?_, ?_⟩, ?_, ?_⟩
  · refine .object .protocols (by decide) ⟨rfl, rfl, rfl, ?_⟩ hfirst hsecond
    intro key halias hcanonical
    simp only [keyObject, get_append, getProperty, if_neg (Ne.symm halias),
      if_neg (Ne.symm hcanonical)]
  · exact status_of_outcome (key_record_outcome hfirst (by rw [hlength]; decide))
  · exact status_of_outcome (long_record_outcome (by rw [hlength]; decide))
  · exact status_of_outcome (key_record_outcome hthird (by rw [hlength]; decide))
  · exact status_of_outcome (key_record_outcome hfourth (by rw [hlength]; decide))

end AgentResolver
