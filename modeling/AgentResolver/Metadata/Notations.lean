import AgentResolver.JavaScript.JsonRoundTrip
import AgentResolver.Metadata.Recognisers

/-!
# The three versioned notations

One list of fields can be written as `agent-identity:v1=` with JSON, as `agent-identity:v1=` with
`key=value` segments, or as `hns-agent=v1` with the same segments. `compact_payload` reads the
segments back into the object that the JSON payload stands for, and `notations_agree` concludes that
the three records are parsed alike.
-/

namespace AgentResolver

open JavaScript

/-- The keys of the compact notation, aliases left out. -/
def compactKeys : List JSString :=
  [text "id", text "did", text "name", text "publicKey", text "service", text "endpoint",
    text "description", text "manifestHash", text "address", text "skill", text "ready",
    text "capabilities", text "protocols"]

/-- A list of fields that every notation can express. -/
structure IsFieldList (fields : Properties JSString) : Prop where
  keys : ∀ field ∈ fields, field.1 ∈ compactKeys
  distinct : (fields.map Prod.fst).Nodup
  trimmed : ∀ field ∈ fields, Trimmed field.2
  plain : ∀ field ∈ fields, unit ';' ∉ field.2

theorem IsFieldList.tail {field : JSString × JSString} {rest : Properties JSString}
    (h : IsFieldList (field :: rest)) : IsFieldList rest where
  keys other hother := h.keys other (List.mem_cons_of_mem field hother)
  distinct := (List.nodup_cons.mp h.distinct).2
  trimmed other hother := h.trimmed other (List.mem_cons_of_mem field hother)
  plain other hother := h.plain other (List.mem_cons_of_mem field hother)

/-- The metadata object `{version: 1, key: value, …}`. -/
def fieldObject (fields : Properties JSString) : Properties JsonValue :=
  versionOne ++ fields.map fun field => (field.1, .string field.2)

/-- `key=value`. -/
def segment (field : JSString × JSString) : JSString := field.1 ++ unit '=' :: field.2

/-- The segments joined by semicolons. -/
def compactText (fields : Properties JSString) : JSString := join (fields.map segment) [unit ';']

def jsonNotation (json : Json) (fields : Properties JSString) : JSString :=
  metadataPrefix ++ json.stringify (.object (fieldObject fields))

def compactNotation (fields : Properties JSString) : JSString :=
  metadataPrefix ++ compactText fields

def hnsAgentNotation (fields : Properties JSString) : JSString :=
  text "hns-agent=v1;" ++ compactText fields

/-- What the parser relies on of the language's `JSON` at an object: the printed text is in braces
and reads back as the object. -/
structure PrintsObject (json : Json) (members : Properties JsonValue) : Prop where
  braces : ∃ inner, json.stringify (.object members) = unit '\x7b' :: inner ++ [unit '\x7d']
  inverse : json.parse (json.stringify (.object members)) = .ok (.object members)

/-! ## Segments -/

/-- What the proofs use of a key. -/
theorem compact_key_spec {key : JSString} (h : key ∈ compactKeys) :
    key ≠ [] ∧ (∀ c ∈ key, isWhitespace c = false) ∧ unit '=' ∉ key ∧ unit ';' ∉ key ∧
      key.head? ≠ some (unit '\x7b') ∧ key ≠ text "version" :=
  (by decide : ∀ key ∈ compactKeys, key ≠ [] ∧ (∀ c ∈ key, isWhitespace c = false) ∧
    unit '=' ∉ key ∧ unit ';' ∉ key ∧ key.head? ≠ some (unit '\x7b') ∧ key ≠ text "version") key h

section

variable {field : JSString × JSString}

theorem segment_head (hkey : field.1 ∈ compactKeys) :
    ∃ c, (segment field).head? = some c ∧ isWhitespace c = false ∧ c ≠ unit '\x7b' := by
  obtain ⟨hne, hvisible, _, _, hbrace, _⟩ := compact_key_spec hkey
  obtain ⟨c, rest, hkeyEq⟩ := List.exists_cons_of_ne_nil hne
  refine ⟨c, by simp [segment, hkeyEq], hvisible c (by simp [hkeyEq]), fun heq => hbrace ?_⟩
  simp [hkeyEq, heq]

theorem segment_last (htrimmed : Trimmed field.2) {c : CodeUnit}
    (hc : (segment field).getLast? = some c) : isWhitespace c = false := by
  rw [segment, List.getLast?_append_cons] at hc
  cases hvalue : field.2 with
  | nil =>
      rw [hvalue] at hc
      cases hc
      decide
  | cons d rest =>
      rw [hvalue, List.getLast?_cons_cons] at hc
      exact htrimmed.last (by rw [hvalue]; exact hc)

theorem segment_trimmed (hkey : field.1 ∈ compactKeys) (htrimmed : Trimmed field.2) :
    Trimmed (segment field) := by
  obtain ⟨c, hhead, hvisible, _⟩ := segment_head hkey
  refine trimmed_of_head_last (fun d hd => ?_) fun d hd => segment_last htrimmed hd
  rw [hhead] at hd
  cases hd
  exact hvisible

theorem segment_plain (hkey : field.1 ∈ compactKeys) (hplain : unit ';' ∉ field.2) :
    unit ';' ∉ segment field := by
  obtain ⟨_, _, _, hsemicolon, _⟩ := compact_key_spec hkey
  rw [segment, List.mem_append, List.mem_cons]
  rintro (h | h | h)
  · exact hsemicolon h
  · exact absurd h (by decide)
  · exact hplain h

/-- A segment sets its own key. -/
theorem apply_segment (hkey : field.1 ∈ compactKeys) (htrimmed : Trimmed field.2)
    (metadata : Properties JsonValue) :
    applySegment metadata (segment field) = setProperty metadata field.1 (.string field.2) := by
  obtain ⟨hne, hvisible, hequals, _⟩ := compact_key_spec hkey
  have htrim : trim (segment field) = segment field := segment_trimmed hkey htrimmed
  have hindex : indexOf (segment field) (unit '=') = some field.1.length := index_of_append hequals
  have hkeyText : trim ((segment field).take field.1.length) = field.1 := by
    rw [segment, List.take_left]
    exact trimmed_of_no_whitespace hvisible
  have hvalueText : trim ((segment field).drop (field.1.length + 1)) = field.2 := by
    rw [segment, List.append_cons, List.drop_left' (by simp)]
    exact htrimmed
  -- None of the keys is an alias or a key that the loop skips.
  have haliases : ¬ (field.1 = [] ∨ field.1 = text "hns-agent") ∧ field.1 ≠ text "protocol" ∧
      field.1 ≠ text "capability" ∧ field.1 ≠ text "skillPath" ∧ field.1 ≠ text "__proto__" :=
    (by decide : ∀ key ∈ compactKeys, ¬ (key = [] ∨ key = text "hns-agent") ∧
      key ≠ text "protocol" ∧ key ≠ text "capability" ∧ key ≠ text "skillPath" ∧
      key ≠ text "__proto__") field.1 hkey
  obtain ⟨hskip, hprotocol, hcapability, hskillPath, hproto⟩ := haliases
  simp only [applySegment, htrim, hindex, hkeyText, hvalueText, List.isEmpty_iff, hskip,
    hprotocol, hcapability, hskillPath, hproto, if_false, false_or, or_false]
  split_ifs with h h h
  · rw [h]
  · rw [h]
  · rw [h]
  · rfl

end

/-! ## The compact payload -/

/-- The segments set the fields one after the other. -/
theorem fold_segments {fields : Properties JSString} (hfields : IsFieldList fields)
    {base : Properties JsonValue} (hfresh : ∀ field ∈ fields, ∀ entry ∈ base, entry.1 ≠ field.1) :
    (fields.map segment).foldl applySegment base =
      base ++ fields.map fun field => (field.1, .string field.2) := by
  induction fields generalizing base with
  | nil => simp
  | cons field rest ih =>
      rw [List.map_cons, List.foldl_cons,
        apply_segment (hfields.keys field List.mem_cons_self)
          (hfields.trimmed field List.mem_cons_self),
        set_property_fresh (hfresh field List.mem_cons_self), ih hfields.tail ?_, List.map_cons,
        List.append_assoc, List.singleton_append]
      intro other hother entry hentry
      rcases List.mem_append.mp hentry with hentry | hentry
      · exact hfresh other (List.mem_cons_of_mem _ hother) entry hentry
      · rw [List.mem_singleton.mp hentry]
        rintro heq
        exact (List.nodup_cons.mp hfields.distinct).1
          (List.mem_map.mpr ⟨other, hother, heq.symm⟩)

theorem version_fresh {fields : Properties JSString} (hfields : IsFieldList fields) :
    ∀ field ∈ fields, ∀ entry ∈ versionOne, entry.1 ≠ field.1 := by
  intro field hfield entry hentry
  obtain rfl := List.mem_singleton.mp hentry
  exact (compact_key_spec (hfields.keys field hfield)).2.2.2.2.2.symm

theorem segments_plain {fields : Properties JSString} (hfields : IsFieldList fields) :
    ∀ piece ∈ fields.map segment, unit ';' ∉ piece := by
  intro piece hpiece
  obtain ⟨field, hfield, rfl⟩ := List.mem_map.mp hpiece
  exact segment_plain (hfields.keys field hfield) (hfields.plain field hfield)

/-- The compact payload reads back as the fields. -/
theorem compact_payload {fields : Properties JSString} (hfields : IsFieldList fields)
    (hne : fields ≠ []) :
    parseKeyValuePayload (compactText fields) versionOne = fieldObject fields := by
  have hsplit : split (compactText fields) (unit ';') = fields.map segment :=
    List.splitOn_intercalate _ (segments_plain hfields) (by simpa using hne)
  rw [parseKeyValuePayload, hsplit, fold_segments hfields (version_fresh hfields)]
  rfl

/-- The whole `hns-agent` record does too: its marker is a segment that is skipped. -/
theorem hns_agent_payload {fields : Properties JSString} (hfields : IsFieldList fields) :
    parseKeyValuePayload (hnsAgentNotation fields) versionOne = fieldObject fields := by
  have hmarker : applySegment versionOne (text "hns-agent=v1") = versionOne := rfl
  have hsplit : split (hnsAgentNotation fields) (unit ';') =
      text "hns-agent=v1" :: split (compactText fields) (unit ';') := by
    have hshape : hnsAgentNotation fields =
        text "hns-agent=v1" ++ unit ';' :: compactText fields :=
      append_parts [unit ';'] (by decide) (compactText fields)
    rw [hshape, split, List.splitOn_append_cons_self_of_not_mem (by decide)]
    rfl
  rw [parseKeyValuePayload, hsplit, List.foldl_cons, hmarker]
  by_cases hne : fields = []
  · subst hne
    rfl
  · exact compact_payload hfields hne

theorem compact_text_head {field : JSString × JSString} (rest : Properties JSString)
    (hkey : field.1 ∈ compactKeys) :
    ∃ c, (compactText (field :: rest)).head? = some c ∧ isWhitespace c = false ∧
      c ≠ unit '\x7b' := by
  obtain ⟨c, hhead, hvisible, hbrace⟩ := segment_head hkey
  refine ⟨c, ?_, hvisible, hbrace⟩
  obtain ⟨tail, htail⟩ : ∃ tail, compactText (field :: rest) = segment field ++ tail := by
    rw [compactText, join, List.map_cons]
    cases rest with
    | nil => exact ⟨[], by simp⟩
    | cons next rest =>
        exact ⟨_, by rw [List.map_cons, List.intercalate_cons_cons, List.append_assoc]⟩
  rw [htail, List.head?_append, hhead]
  rfl

theorem compact_text_last {fields : Properties JSString} (hfields : IsFieldList fields)
    {c : CodeUnit} (hc : (compactText fields).getLast? = some c) : isWhitespace c = false := by
  induction fields with
  | nil => cases hc
  | cons field rest ih =>
      cases rest with
      | nil =>
          have hsingle : compactText [field] = segment field := by simp [compactText, join]
          rw [hsingle] at hc
          exact segment_last (hfields.trimmed field List.mem_cons_self) hc
      | cons next rest =>
          have hjoin : compactText (field :: next :: rest) =
              segment field ++ [unit ';'] ++ compactText (next :: rest) := by
            rw [compactText, join, List.map_cons, List.map_cons, List.intercalate_cons_cons]
            rfl
          obtain ⟨d, hhead, _⟩ := compact_text_head rest
            (hfields.keys next (List.mem_cons_of_mem _ List.mem_cons_self))
          have hne : compactText (next :: rest) ≠ [] := by
            intro hnil
            rw [hnil] at hhead
            cases hhead
          rw [hjoin, List.getLast?_append_of_ne_nil _ hne] at hc
          exact ih hfields.tail hc

/-- The compact text is trimmed, not empty, and no JSON text. -/
theorem compact_text_trimmed {fields : Properties JSString} (hfields : IsFieldList fields) :
    Trimmed (compactText fields) := by
  cases fields with
  | nil => rfl
  | cons field rest =>
      obtain ⟨c, hhead, hvisible, _⟩ :=
        compact_text_head rest (hfields.keys field List.mem_cons_self)
      refine trimmed_of_head_last (fun d hd => ?_) fun d hd => compact_text_last hfields hd
      rw [hhead] at hd
      cases hd
      exact hvisible

/-! ## The three records -/

/-- What the payload readers make of an object. -/
def readObject (members : Properties JsonValue) : ParsedValue :=
  validationResult (validateAgentIdentityMetadata (.object members)) .found .malformed

variable {json : Json} {fields : Properties JSString}

/-- The prefix of a record makes it a metadata record and no `hns-agent` record. -/
theorem metadata_notation_markers (payload : JSString) :
    hnsAgentMatch (metadataPrefix ++ payload) = none ∧
      startsWith (metadataPrefix ++ payload) metadataPrefix = true := by
  constructor
  · have hname : ¬ ((metadataPrefix ++ payload).take (text "hns-agent").length).map asciiLower =
        text "hns-agent" := by
      rw [List.take_append_of_le_length (by decide)]
      decide
    simp only [hnsAgentMatch, hname, if_false]
  · exact List.isPrefixOf_iff_prefix.mpr (List.prefix_append _ _)

theorem metadata_notation_parse {payload : JSString}
    (hlength : (metadataPrefix ++ payload).length ≤ maxTxtValueLength) :
    parseMetadataValue json (metadataPrefix ++ payload) =
      match parseAgentIdentityPayload json payload with
      | .error error => .malformed (text "metadata could not be parsed: " ++ error.message)
      | .ok parsed =>
          validationResult (validateAgentIdentityMetadata parsed) .found .malformed := by
  obtain ⟨hnone, hstart⟩ := metadata_notation_markers payload
  have hshort : ¬ (metadataPrefix ++ payload).length > maxTxtValueLength := Nat.not_lt.mpr hlength
  cases hpayload : parseAgentIdentityPayload json payload <;>
    simp only [parseMetadataValue, hnone, hstart, Bool.not_true, Bool.false_eq_true, if_false,
      hshort, List.drop_left, hpayload]

/-- A printed object is read as the object. -/
theorem printed_object_parse {members : Properties JsonValue} (hjson : PrintsObject json members)
    (hlength : (metadataPrefix ++ json.stringify (.object members)).length ≤ maxTxtValueLength) :
    parseMetadataValue json (metadataPrefix ++ json.stringify (.object members)) =
      readObject members := by
  obtain ⟨inner, hbraces⟩ := hjson.braces
  -- The text is in braces, so trimming keeps it and the JSON reader is chosen.
  have htrim : trim (json.stringify (.object members)) = json.stringify (.object members) := by
    refine trimmed_of_head_last (fun c hc => ?_) fun c hc => ?_
    · rw [hbraces] at hc
      cases hc
      decide
    · rw [hbraces, List.getLast?_concat] at hc
      cases hc
      decide
  have hstart : startsWith (json.stringify (.object members)) [unit '\x7b'] := by
    rw [hbraces]
    rfl
  have hne : (json.stringify (.object members)).isEmpty = false := by
    rw [hbraces]
    rfl
  have hpayload : parseAgentIdentityPayload json (json.stringify (.object members)) =
      .ok (.object members) := by
    simp only [parseAgentIdentityPayload, htrim, hne, hstart, Bool.false_eq_true, if_false, if_true,
      hjson.inverse]
    rfl
  rw [metadata_notation_parse hlength, hpayload]
  rfl

theorem json_notation_parse (hjson : PrintsObject json (fieldObject fields))
    (hlength : (jsonNotation json fields).length ≤ maxTxtValueLength) :
    parseMetadataValue json (jsonNotation json fields) = readObject (fieldObject fields) :=
  printed_object_parse hjson hlength

theorem compact_notation_parse (hfields : IsFieldList fields) (hne : fields ≠ [])
    (hlength : (compactNotation fields).length ≤ maxTxtValueLength) :
    parseMetadataValue json (compactNotation fields) = readObject (fieldObject fields) := by
  have htrim : trim (compactText fields) = compactText fields := compact_text_trimmed hfields
  obtain ⟨hempty, hstart⟩ : (compactText fields).isEmpty = false ∧
      startsWith (compactText fields) [unit '\x7b'] = false := by
    obtain ⟨field, rest, rfl⟩ := List.exists_cons_of_ne_nil hne
    obtain ⟨c, hhead, _, hbrace⟩ :=
      compact_text_head rest (hfields.keys field List.mem_cons_self)
    obtain ⟨tail, htail⟩ := List.head?_eq_some_iff.mp hhead
    rw [htail]
    exact ⟨rfl, by simp [startsWith, List.isPrefixOf, hbrace.symm]⟩
  have hpayload : parseAgentIdentityPayload json (compactText fields) =
      .ok (.object (fieldObject fields)) := by
    simp only [parseAgentIdentityPayload, htrim, hempty, hstart, Bool.false_eq_true, if_false,
      compact_payload hfields hne]
  rw [compactNotation, metadata_notation_parse hlength, hpayload]
  rfl

theorem hns_agent_notation_parse (hfields : IsFieldList fields)
    (hlength : (hnsAgentNotation fields).length ≤ maxTxtValueLength) :
    parseMetadataValue json (hnsAgentNotation fields) = readObject (fieldObject fields) := by
  have hmatch : hnsAgentMatch (hnsAgentNotation fields) = some (text "1") := rfl
  have hshort : ¬ (hnsAgentNotation fields).length > maxTxtValueLength := Nat.not_lt.mpr hlength
  simp only [parseMetadataValue, hmatch, ne_eq, not_true, if_false, hshort,
    hns_agent_payload hfields]
  rfl

/-! ## One record -/

/-- The status and the identity of a parse. -/
def outcome (result : ParseResult) : MetadataStatus × Option Identity :=
  (result.status, result.identity)

/-- The outcome of a list of one versioned record. -/
def singleOutcome : ParsedValue → MetadataStatus × Option Identity
  | .found identity => (.found, some identity)
  | .malformed _ => (.malformedRecords, none)
  | .unsupported _ => (.unsupportedRecords, none)
  | .ignored => (.noCompatibleRecords, none)

theorem parse_single {record : TxtRecord} (hversioned : isVersioned (joinTxtRecord record)) :
    outcome (parseTxtRecords json [record]) =
      singleOutcome (parseMetadataValue json (joinTxtRecord record)) := by
  simp only [parseTxtRecords, List.map_cons, List.map_nil, parseLoop]
  cases hparsed : parseMetadataValue json (joinTxtRecord record) with
  | found identity => rfl
  | malformed message => rfl
  | unsupported message => rfl
  | ignored =>
      rw [parsed_ignored_iff.mp hparsed] at hversioned
      cases hversioned

/-- The notations are all versioned. -/
theorem notations_versioned (payload : JSString) :
    isVersioned (metadataPrefix ++ payload) ∧ isVersioned (text "hns-agent=v1;" ++ payload) := by
  constructor
  · have hstart := (metadata_notation_markers payload).2
    exact Bool.or_eq_true_iff.mpr (Or.inr (metadata_prefix_match_of_starts_with hstart))
  · exact Bool.or_eq_true_iff.mpr (Or.inl rfl)

/-- Without fields the compact payload is empty, which is malformed. -/
theorem empty_compact_outcome (json : Json) :
    singleOutcome (parseMetadataValue json (compactNotation [])) = (.malformedRecords, none) := by
  rw [compactNotation, metadata_notation_parse (by decide)]
  rfl

/-- The object without fields says nothing, which is malformed too. -/
theorem empty_object_outcome :
    singleOutcome (readObject (fieldObject [])) = (.malformedRecords, none) := rfl

/-- The three notations of a list of fields have the same status and the same identity, however the
records are cut into segments. -/
theorem notations_agree {json : Json} {fields : Properties JSString} (hfields : IsFieldList fields)
    (hjson : PrintsObject json (fieldObject fields))
    {jsonRecord compactRecord hnsRecord : TxtRecord}
    (hjsonRecord : joinTxtRecord jsonRecord = jsonNotation json fields)
    (hcompactRecord : joinTxtRecord compactRecord = compactNotation fields)
    (hhnsRecord : joinTxtRecord hnsRecord = hnsAgentNotation fields)
    (hjsonLength : (jsonNotation json fields).length ≤ maxTxtValueLength)
    (hcompactLength : (compactNotation fields).length ≤ maxTxtValueLength)
    (hhnsLength : (hnsAgentNotation fields).length ≤ maxTxtValueLength) :
    outcome (parseTxtRecords json [jsonRecord]) = outcome (parseTxtRecords json [hnsRecord]) ∧
      outcome (parseTxtRecords json [compactRecord]) =
        outcome (parseTxtRecords json [hnsRecord]) := by
  have hjsonVersioned : isVersioned (joinTxtRecord jsonRecord) := by
    rw [hjsonRecord]
    exact (notations_versioned _).1
  have hcompactVersioned : isVersioned (joinTxtRecord compactRecord) := by
    rw [hcompactRecord]
    exact (notations_versioned _).1
  have hhnsVersioned : isVersioned (joinTxtRecord hnsRecord) := by
    rw [hhnsRecord]
    exact (notations_versioned _).2
  rw [parse_single hjsonVersioned, parse_single hcompactVersioned, parse_single hhnsVersioned,
    hjsonRecord, hcompactRecord, hhnsRecord, json_notation_parse hjson hjsonLength,
    hns_agent_notation_parse hfields hhnsLength]
  refine ⟨rfl, ?_⟩
  -- Without fields the compact payload is empty, which is another error with the same status.
  by_cases hne : fields = []
  · subst hne
    rw [empty_compact_outcome, empty_object_outcome]
  · rw [compact_notation_parse hfields hne hcompactLength]

/-! ## The `JSON` of the language -/

theorem version_one_language : IsLanguageObject versionOne := by
  refine ⟨by decide, fun member hmember => ?_⟩
  rw [List.mem_singleton.mp hmember]
  exact .number (is_double_int (by decide))

theorem texts_language (texts : Properties JSString) :
    ∀ member ∈ texts.map fun member => (member.1, JsonValue.string member.2),
      IsLanguageValue member.2 := by
  intro member hmember
  obtain ⟨entry, -, rfl⟩ := List.mem_map.mp hmember
  exact .string entry.2

theorem texts_shown (texts : Properties JSString) :
    (texts.map fun member => (member.1, JsonValue.string member.2)).map
        (fun member => (member.1, member.2.shown)) =
      texts.map fun member => (member.1, JsonValue.string member.2) := by
  rw [List.map_map]
  rfl

/-- The language prints every list of fields as an object that it reads back. -/
theorem field_object_printed (syntaxError : JSString → JSError) {fields : Properties JSString}
    (h : IsFieldList fields) :
    PrintsObject (languageJson syntaxError) (fieldObject fields) := by
  have hlanguage : IsLanguageObject (fieldObject fields) := by
    refine ⟨?_, List.forall_mem_append.mpr ⟨version_one_language.values, texts_language fields⟩⟩
    rw [fieldObject, List.map_append, List.map_map]
    refine List.nodup_append.mpr ⟨version_one_language.distinct, h.distinct, ?_⟩
    rintro version hversion key hkey rfl
    obtain ⟨field, hfield, rfl⟩ := List.mem_map.mp hkey
    exact (compact_key_spec (h.keys field hfield)).2.2.2.2.2 (List.mem_singleton.mp hversion)
  -- No key is an array index, so the enumeration keeps the order of the fields.
  have hnamed : ∀ member ∈ fieldObject fields, arrayIndex member.1 = none := by
    refine List.forall_mem_append.mpr ⟨by decide, fun member hmember => ?_⟩
    obtain ⟨field, hfield, rfl⟩ := List.mem_map.mp hmember
    exact (by decide : ∀ key ∈ compactKeys, arrayIndex key = none) _ (h.keys field hfield)
  have hshown : (JsonValue.object (fieldObject fields)).shown = .object (fieldObject fields) := by
    have hmembers : (fieldObject fields).map (fun member => (member.1, member.2.shown)) =
        fieldObject fields := by
      rw [fieldObject, List.map_append, texts_shown]
      rfl
    rw [shown_object_eq, shownObject, hmembers, enumerate_named hnamed]
  refine ⟨stringify_object [] _, ?_⟩
  have hread := @language_json_shown syntaxError _ hlanguage.value
  rw [hshown] at hread
  exact hread

/-- The agreement for three fields, with every record cut into segments. -/
theorem notations_agree_example :
    outcome (parseTxtRecords (languageJson JSError.mk)
        [.segments [text "agent-identity:v1=",
          text "\x7b\"version\":1,\"id\":\"a\",\"ready\":\"no\",", text "\"name\":\"b c\"\x7d"]]) =
      outcome (parseTxtRecords (languageJson JSError.mk)
        [.segments [text "hns-agent=v1;id=a", text ";ready=no;name=b c"]]) ∧
    outcome (parseTxtRecords (languageJson JSError.mk)
        [.segments [text "agent-identity:v1=id=a;", text "ready=no;name=b c"]]) =
      outcome (parseTxtRecords (languageJson JSError.mk)
        [.segments [text "hns-agent=v1;id=a", text ";ready=no;name=b c"]]) := by
  have hfields : IsFieldList
      [(text "id", text "a"), (text "ready", text "no"), (text "name", text "b c")] :=
    ⟨by decide, by decide, by decide, by decide⟩
  exact notations_agree hfields (field_object_printed JSError.mk hfields) (by decide +kernel) rfl
    rfl (by decide +kernel) (by decide) (by decide)

end AgentResolver
