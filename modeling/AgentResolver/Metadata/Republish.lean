import AgentResolver.Metadata.Notations
import AgentResolver.Metadata.SchemaReference
import AgentResolver.Sequence.Search

/-!
# Publishing an identity again

The identity that the validator returns is metadata itself. `IsNormal` says what holds of every
identity it returns (`validated_normal`), and from that alone the object of the identity matches
the schema (`identity_object_matches`) and is its own normal form (`same_identity_of_form`). So an
identity that was found can be printed and found again.
-/

namespace AgentResolver

open JavaScript Sequence

/-! ## Normal identities -/

/-- A text that trimming does not change, and that fits into a string field. -/
structure IsNormalText (s : JSString) : Prop where
  trimmed : Trimmed s
  nonempty : s ≠ []
  short : s.length ≤ maxStringFieldLength

theorem IsNormalText.valid {s : JSString} (h : IsNormalText s) : IsValidString (.string s) := by
  refine ⟨s, rfl, ?_, h.short⟩
  rw [show trim s = s from h.trimmed]
  exact h.nonempty

/-- An entry with an id and a name whose texts are normal, and without other keys than `fields`. -/
structure IsNormalEntry (fields : List JSString) (entry : SimpleObject) : Prop where
  texts : ∀ key s, getProperty entry key = some s → key ∈ fields ∧ IsNormalText s
  id : (getProperty entry (text "id")).isSome
  name : (getProperty entry (text "name")).isSome

/-- What holds of every identity that the validator returns. -/
structure IsNormal (identity : Identity) : Prop where
  strings : ∀ key s, getProperty identity.strings key = some s →
    key ∈ optionalStringFields ∧ IsNormalText s
  capabilityCount : identity.capabilities.length ≤ maxCapabilityCount
  capabilities : ∀ entry ∈ identity.capabilities, IsNormalEntry capabilityStringFields entry
  protocolCount : identity.protocols.length ≤ maxProtocolCount
  protocols : ∀ entry ∈ identity.protocols, IsNormalEntry protocolStringFields entry
  signal : (∃ key, (getProperty identity.strings key).isSome) ∨ identity.ready.isSome ∨
    identity.capabilities ≠ [] ∨ identity.protocols ≠ []

theorem normal_text_of_valid {s : JSString} (h : IsValidString (.string s)) :
    IsNormalText (trim s) := by
  obtain ⟨t, ht, hvisible, hshort⟩ := h
  cases ht
  exact ⟨trimmed_trim s, hvisible, (length_trim_le s).trans hshort⟩

/-- The normal form of a valid field is a normal text. -/
theorem normal_field_text {read : JSString → Option JsonValue} {field s : JSString}
    (hvalid : ∀ value, present (read field) = some value → IsValidString value)
    (h : fieldText read field = some s) : IsNormalText s := by
  obtain ⟨value, hvalue, htext⟩ := Option.bind_eq_some_iff.mp h
  obtain ⟨t, rfl, _⟩ := hvalid value hvalue
  cases htext
  exact normal_text_of_valid (hvalid _ hvalue)

/-- Every text of a normal form is the normal form of a listed field. -/
theorem entry_text_source {fields : List JSString} (hid : text "id" ∈ fields)
    (hname : text "name" ∈ fields) {read : JSString → Option JsonValue} {key s : JSString}
    (h : entryText fields read key = some s) :
    key ∈ fields ∧ ∃ field ∈ fields, fieldText read field = some s := by
  unfold entryText at h
  split_ifs at h with hkeyId hkeyName hkey
  · refine ⟨hkeyId ▸ hid, ?_⟩
    rcases Option.or_eq_some_iff.mp h with h | ⟨_, h⟩
    · exact ⟨_, hid, h⟩
    · exact ⟨_, hname, h⟩
  · refine ⟨hkeyName ▸ hname, ?_⟩
    rcases Option.or_eq_some_iff.mp h with h | ⟨_, h⟩
    · exact ⟨_, hname, h⟩
    · exact ⟨_, hid, h⟩
  · exact ⟨hkey, key, hkey, h⟩

/-- The normal form of a valid entry is a normal entry. -/
theorem normal_entry_of_form {spec : EntryKind} (hid : text "id" ∈ spec.fields)
    (hname : text "name" ∈ spec.fields) {value : JsonValue} {entry : SimpleObject}
    (hvalid : IsEntry spec value) (hform : EntryForm spec value entry) :
    IsNormalEntry spec.fields entry := by
  cases hform with
  | string s =>
      obtain ⟨hstring⟩ := hvalid
      have hnormal := normal_text_of_valid hstring
      refine ⟨fun key t hkey => ?_, rfl, rfl⟩
      simp only [stringEntry, getProperty] at hkey
      split_ifs at hkey with hfirst hsecond
      · cases hkey
        exact ⟨hfirst ▸ hid, hnormal⟩
      · cases hkey
        exact ⟨hsecond ▸ hname, hnormal⟩
  | object hreads =>
      obtain _ | ⟨hfields, hnamed⟩ := hvalid
      rw [← (field_text_of_valid (hfields _ hid)).1, ← (field_text_of_valid (hfields _ hname)).1,
        ← Bool.or_eq_true, ← Option.isSome_or] at hnamed
      refine ⟨fun key s hkey => ?_, ?_, ?_⟩
      · rw [hreads] at hkey
        obtain ⟨hmem, field, hfield, htext⟩ := entry_text_source hid hname hkey
        exact ⟨hmem, normal_field_text (hfields field hfield) htext⟩
      · rw [hreads]
        exact hnamed
      · rw [hreads, entryText, if_neg (by decide), if_pos rfl, Option.isSome_or, Bool.or_comm,
          ← Option.isSome_or]
        exact hnamed

/-- The entries of a valid list are normal, and not too many. -/
theorem normal_entries_of_forms {spec : EntryKind} (hid : text "id" ∈ spec.fields)
    (hname : text "name" ∈ spec.fields) {read : Option JsonValue} {forms : List SimpleObject}
    (hlist : IsEntryList spec read)
    (hforms : List.Forall₂ (EntryForm spec) (listEntries read) forms) :
    forms.length ≤ spec.maxCount ∧ ∀ entry ∈ forms, IsNormalEntry spec.fields entry := by
  refine ⟨hforms.length_eq ▸ hlist.count, fun entry hentry => ?_⟩
  obtain ⟨value, hvalue, hform⟩ := exists_left_of_mem hforms hentry
  exact normal_entry_of_form hid hname (hlist.entries value hvalue) hform

/-- The normal form of an object that matches the schema is normal. -/
theorem normal_of_form {read : JSString → Option JsonValue} {identity : Identity}
    (h : MatchesSchema read) (hform : IsNormalForm read identity) : IsNormal identity := by
  obtain ⟨hready, hstrings, hcapabilities, hprotocols, _⟩ := hform
  have hread (key : JSString) : getProperty identity.strings key =
      if key ∈ optionalStringFields then fieldText (stringSource read) key else none := by
    rw [hstrings, present_texts_read]
  obtain ⟨hcapabilityCount, hcapabilityForms⟩ :=
    normal_entries_of_forms (by decide) (by decide) h.capabilities hcapabilities
  obtain ⟨hprotocolCount, hprotocolForms⟩ :=
    normal_entries_of_forms (by decide) (by decide) h.protocols hprotocols
  refine ⟨fun key s hkey => ?_, hcapabilityCount, hcapabilityForms, hprotocolCount,
    hprotocolForms, ?_⟩
  · rw [hread] at hkey
    split_ifs at hkey with hmem
    exact ⟨hmem, normal_field_text (h.strings key hmem) hkey⟩
  · rw [forms_nil_iff hcapabilities, forms_nil_iff hprotocols]
    -- Whatever made the object an identity is kept in the normal form.
    rcases h.signal with ⟨field, hfield, hpresent⟩ | hpresent | hentries
    · refine Or.inl ⟨field, ?_⟩
      rwa [hread, if_pos hfield, (field_text_of_valid (h.strings field hfield)).1]
    · obtain ⟨value, hvalue⟩ := Option.isSome_iff_exists.mp hpresent
      obtain ⟨b, hb⟩ := h.ready value hvalue
      exact Or.inr (Or.inl (by rw [(hready b).mpr ⟨value, hvalue, hb⟩]; rfl))
    · exact Or.inr (Or.inr hentries)

/-- Every identity that the validator returns is normal. -/
theorem validated_normal {value : JsonValue} {identity : Identity}
    (hok : (validateAgentIdentityMetadata value).ok)
    (hidentity : (validateAgentIdentityMetadata value).identity = some identity) :
    IsNormal identity := by
  cases value with
  | object members =>
      have hmatches := validate_properties_ok.mp hok
      obtain ⟨other, hother, hform⟩ := validate_normal_form hmatches
      have heq : other = identity := Option.some.inj (hother.symm.trans hidentity)
      exact normal_of_form hmatches (heq ▸ hform)
  | null | boolean b | number n | string s | array items => cases hok

/-! ## The object of an identity -/

/-- A normalised entry as a JSON value. -/
def entryObject (entry : SimpleObject) : JsonValue :=
  .object (entry.map fun member => (member.1, .string member.2))

/-- The value of a list property: an empty list is left out. -/
def listValue (entries : List SimpleObject) : Option JsonValue :=
  if entries = [] then none else some (.array (entries.map entryObject))

/-- The property `key`, if it has a value. -/
def optionalProperty (key : JSString) (value : Option JsonValue) : Properties JsonValue :=
  (value.map fun value => (key, value)).toList

/-- The object that the validator returns as the identity, in the order of its assignments. -/
def identityObject (identity : Identity) : Properties JsonValue :=
  versionOne ++ optionalProperty (text "ready") (identity.ready.map .boolean) ++
    (identity.strings.map fun member => (member.1, .string member.2)) ++
    optionalProperty (text "capabilities") (listValue identity.capabilities) ++
    optionalProperty (text "protocols") (listValue identity.protocols) ++
    optionalProperty (text "extra") (identity.extra.map .object)

theorem get_optional (name key : JSString) (value : Option JsonValue) :
    getProperty (optionalProperty name value) key = if name = key then value else none := by
  cases value with
  | none => simp [optionalProperty]
  | some value => simp [optionalProperty, getProperty]

/-- The object of an identity, read at any key. -/
theorem identity_object_read (identity : Identity) (key : JSString) :
    getProperty (identityObject identity) key =
      (((((if text "version" = key then some (.number (.finite 1)) else none).or
        (if text "ready" = key then identity.ready.map .boolean else none)).or
        ((getProperty identity.strings key).map .string)).or
        (if text "capabilities" = key then listValue identity.capabilities else none)).or
        (if text "protocols" = key then listValue identity.protocols else none)).or
        (if text "extra" = key then identity.extra.map .object else none) := by
  rw [identityObject, get_append, get_append, get_append, get_append, get_append, get_map,
    get_optional, get_optional, get_optional, get_optional]
  rfl

section

variable {identity : Identity} (h : IsNormal identity)

include h

theorem string_absent {key : JSString} (hkey : key ∉ optionalStringFields) :
    getProperty identity.strings key = none := by
  cases hread : getProperty identity.strings key with
  | none => rfl
  | some s => exact absurd (h.strings key s hread).1 hkey

/-- The aliases are not used. -/
theorem read_alias {key : JSString} (hkey : key ∈ [text "v", text "skillPath", text "protocol"]) :
    getProperty (identityObject identity) key = none := by
  have hall : ∀ key ∈ [text "v", text "skillPath", text "protocol"],
      key ∉ optionalStringFields ∧ text "version" ≠ key ∧ text "ready" ≠ key ∧
        text "capabilities" ≠ key ∧ text "protocols" ≠ key ∧ text "extra" ≠ key := by decide
  obtain ⟨hstring, hversion, hready, hcapabilities, hprotocols, hextra⟩ := hall key hkey
  rw [identity_object_read, string_absent h hstring, if_neg hversion, if_neg hready,
    if_neg hcapabilities, if_neg hprotocols, if_neg hextra]
  rfl

theorem read_ready :
    getProperty (identityObject identity) (text "ready") = identity.ready.map .boolean := by
  rw [identity_object_read, string_absent h (by decide)]
  cases identity.ready <;> rfl

theorem read_capabilities :
    getProperty (identityObject identity) (text "capabilities") =
      listValue identity.capabilities := by
  rw [identity_object_read, string_absent h (by decide)]
  cases listValue identity.capabilities <;> rfl

theorem read_protocols :
    getProperty (identityObject identity) (text "protocols") = listValue identity.protocols := by
  rw [identity_object_read, string_absent h (by decide)]
  cases listValue identity.protocols <;> rfl

theorem read_protocol_source :
    protocolSource (getProperty (identityObject identity)) = listValue identity.protocols := by
  rw [protocolSource, read_protocols h, read_alias h (by decide), Option.or_none]
  unfold listValue
  split
  · rfl
  · rfl

theorem read_extra :
    getProperty (identityObject identity) (text "extra") = identity.extra.map .object := by
  rw [identity_object_read, string_absent h (by decide)]
  rfl

omit h in
theorem read_string {field : JSString} (hfield : field ∈ optionalStringFields) :
    getProperty (identityObject identity) field =
      (getProperty identity.strings field).map .string := by
  have hall : ∀ field ∈ optionalStringFields, text "version" ≠ field ∧ text "ready" ≠ field ∧
      text "capabilities" ≠ field ∧ text "protocols" ≠ field ∧ text "extra" ≠ field := by decide
  obtain ⟨hversion, hready, hcapabilities, hprotocols, hextra⟩ := hall field hfield
  rw [identity_object_read, if_neg hversion, if_neg hready, if_neg hcapabilities,
    if_neg hprotocols, if_neg hextra, Option.none_or, Option.none_or, Option.or_none,
    Option.or_none, Option.or_none]

/-- What the validator reads for a string field. -/
theorem string_source_read {field : JSString} (hfield : field ∈ optionalStringFields) :
    present (stringSource (getProperty (identityObject identity)) field) =
      (getProperty identity.strings field).map .string := by
  have hpresent (value : Option JSString) :
      present (value.map .string) = value.map JsonValue.string := by cases value <;> rfl
  rw [stringSource, read_string hfield, read_alias h (by decide), hpresent, Option.or_none,
    ite_self, hpresent]

end

theorem list_value_entries (entries : List SimpleObject) :
    listEntries (listValue entries) = entries.map entryObject := by
  unfold listValue
  split
  · rename_i hnil
    rw [hnil]
    rfl
  · rfl

/-! ## Equality up to the order of keys -/

/-- The two objects have the same properties. -/
def SameObject (entry entry' : SimpleObject) : Prop :=
  ∀ key, getProperty entry key = getProperty entry' key

/-- The two identities are equal as objects. -/
structure SameIdentity (identity identity' : Identity) : Prop where
  ready : identity.ready = identity'.ready
  strings : SameObject identity.strings identity'.strings
  capabilities : List.Forall₂ SameObject identity.capabilities identity'.capabilities
  protocols : List.Forall₂ SameObject identity.protocols identity'.protocols
  extra : identity.extra = identity'.extra

section

variable {spec : EntryKind} {entry : SimpleObject}

theorem entry_field_text (h : IsNormalEntry spec.fields entry) (key : JSString) :
    fieldText (getProperty (entry.map fun member => (member.1, JsonValue.string member.2))) key =
      getProperty entry key := by
  rw [fieldText, get_map]
  cases hread : getProperty entry key with
  | none => rfl
  | some s => exact congrArg some (h.texts key s hread).2.trimmed

/-- A normal entry is a valid entry. -/
theorem entry_object_valid (h : IsNormalEntry spec.fields entry) :
    IsEntry spec (entryObject entry) := by
  have hpresent (key : JSString) :
      present (getProperty (entry.map fun member => (member.1, JsonValue.string member.2)) key) =
        (getProperty entry key).map .string := by
    rw [get_map]
    cases getProperty entry key <;> rfl
  refine .object (fun field _ value hvalue => ?_) (Or.inl ?_)
  · rw [hpresent] at hvalue
    obtain ⟨s, hs, rfl⟩ := Option.map_eq_some_iff.mp hvalue
    exact (h.texts field s hs).2.valid
  · rw [hpresent, Option.isSome_map]
    exact h.id

/-- A normal entry is its own normal form. -/
theorem same_object_of_form (h : IsNormalEntry spec.fields entry) {entry' : SimpleObject}
    (hform : EntryForm spec (entryObject entry) entry') : SameObject entry entry' := by
  obtain _ | ⟨hreads⟩ := hform
  intro key
  have hor : ∀ {first second : Option JSString}, first.isSome → first.or second = first := by
    rintro (_ | s) second hsome
    · cases hsome
    · rfl
  rw [hreads, entryText, entry_field_text h, entry_field_text h, entry_field_text h]
  -- Both `id` and `name` are set, so neither stands in for the other.
  split_ifs with hkeyId hkeyName hkey
  · rw [hkeyId, hor h.id]
  · rw [hkeyName, hor h.name]
  · rfl
  · cases hread : getProperty entry key with
    | none => rfl
    | some s => exact absurd (h.texts key s hread).1 hkey

/-- A list of normal entries is a valid list. -/
theorem normal_list_valid {entries : List SimpleObject} (hcount : entries.length ≤ spec.maxCount)
    (h : ∀ entry ∈ entries, IsNormalEntry spec.fields entry) :
    IsEntryList spec (listValue entries) := by
  refine ⟨fun value hvalue => ?_, ?_, fun value hvalue => ?_⟩
  · unfold listValue at hvalue
    split at hvalue
    · cases hvalue
    · cases hvalue
      rfl
  · rw [list_value_entries, List.length_map]
    exact hcount
  · rw [list_value_entries] at hvalue
    obtain ⟨entry, hentry, rfl⟩ := List.mem_map.mp hvalue
    exact entry_object_valid (h entry hentry)

/-- A list of normal entries is its own normal form. -/
theorem same_objects_of_forms {entries forms : List SimpleObject}
    (h : ∀ entry ∈ entries, IsNormalEntry spec.fields entry)
    (hforms : List.Forall₂ (EntryForm spec) (listEntries (listValue entries)) forms) :
    List.Forall₂ SameObject entries forms := by
  rw [list_value_entries] at hforms
  induction entries generalizing forms with
  | nil =>
      cases hforms
      exact .nil
  | cons entry rest ih =>
      obtain _ | ⟨hform, hrest⟩ := hforms
      exact .cons (same_object_of_form (h entry List.mem_cons_self) hform)
        (ih (fun e he => h e (List.mem_cons_of_mem _ he)) hrest)

end

/-! ## Validation again -/

variable {identity : Identity}

/-- The object of a normal identity matches the schema. -/
theorem identity_object_matches (h : IsNormal identity) :
    MatchesSchema (getProperty (identityObject identity)) := by
  have hcapabilities := read_capabilities h
  have hprotocols := read_protocol_source h
  have hentries : ∀ entries, listEntries (listValue entries) ≠ [] ↔ entries ≠ [] := by
    intro entries
    rw [list_value_entries, ne_eq, List.map_eq_nil_iff]
  refine ⟨Or.inl ?_, fun value hvalue => ?_, fun field hfield value hvalue => ?_, ?_, ?_,
    fun value hvalue => ?_, ?_⟩
  · rw [versionSource, identity_object_read, if_pos rfl]
    rfl
  · rw [read_ready h] at hvalue
    cases hready : identity.ready with
    | none =>
        rw [hready] at hvalue
        cases hvalue
    | some b =>
        rw [hready] at hvalue
        cases hvalue
        exact ⟨b, .boolean b⟩
  · rw [string_source_read h hfield] at hvalue
    obtain ⟨s, hs, rfl⟩ := Option.map_eq_some_iff.mp hvalue
    exact (h.strings field s hs).2.valid
  · rw [hcapabilities]
    exact normal_list_valid h.capabilityCount h.capabilities
  · rw [hprotocols]
    exact normal_list_valid h.protocolCount h.protocols
  · rw [read_extra h] at hvalue
    cases hextra : identity.extra with
    | none =>
        rw [hextra] at hvalue
        cases hvalue
    | some members =>
        rw [hextra] at hvalue
        cases hvalue
        exact ⟨members, rfl⟩
  · rw [hcapabilities, hprotocols, hentries, hentries, read_ready h]
    -- What makes the identity one is printed, so it makes the object one.
    rcases h.signal with ⟨key, hkey⟩ | hready | hlists
    · obtain ⟨s, hs⟩ := Option.isSome_iff_exists.mp hkey
      have hfield := (h.strings key s hs).1
      refine Or.inl ⟨key, hfield, ?_⟩
      rw [string_source_read h hfield, Option.isSome_map]
      exact hkey
    · obtain ⟨b, hb⟩ := Option.isSome_iff_exists.mp hready
      refine Or.inr (Or.inl ?_)
      rw [hb]
      rfl
    · exact Or.inr (Or.inr hlists)

/-- A normal identity is its own normal form. -/
theorem same_identity_of_form (h : IsNormal identity) {identity' : Identity}
    (hform : IsNormalForm (getProperty (identityObject identity)) identity') :
    SameIdentity identity identity' := by
  obtain ⟨hready, hstrings, hcapabilities, hprotocols, hextra⟩ := hform
  rw [read_capabilities h] at hcapabilities
  rw [read_protocol_source h] at hprotocols
  refine ⟨?_, fun key => ?_, same_objects_of_forms h.capabilities hcapabilities,
    same_objects_of_forms h.protocols hprotocols, ?_⟩
  -- `ready` is determined by the boolean forms that it has.
  · refine Option.ext fun b => ?_
    rw [hready, read_ready h]
    cases identity.ready with
    | none =>
        constructor
        · intro hsome
          cases hsome
        · rintro ⟨value, hvalue, _⟩
          cases hvalue
    | some b' =>
        constructor
        · rintro hb
          cases hb
          exact ⟨_, rfl, .boolean b⟩
        · rintro ⟨value, hvalue, hb⟩
          cases hvalue
          cases hb
          rfl
  · rw [hstrings, present_texts_read]
    split_ifs with hkey
    · rw [fieldText, string_source_read h hkey]
      cases hread : getProperty identity.strings key with
      | none => rfl
      | some s => exact congrArg some (h.strings key s hread).2.trimmed.symm
    · exact string_absent h hkey
  · refine Option.ext fun members => ?_
    rw [hextra, read_extra h]
    cases identity.extra with
    | none => exact iff_of_false (fun hsome => by cases hsome) fun hvalue => by cases hvalue
    | some others =>
        constructor
        · rintro hsome
          cases hsome
          rfl
        · rintro hsome
          cases hsome
          rfl

/-- The identity of a normal identity's object is the same identity. -/
theorem normal_accepted_again (h : IsNormal identity) :
    (validateAgentIdentityMetadata (.object (identityObject identity))).ok ∧
      ∃ again, (validateAgentIdentityMetadata (.object (identityObject identity))).identity =
        some again ∧ SameIdentity identity again := by
  have hmatches := identity_object_matches h
  obtain ⟨again, hagain, hform⟩ := validate_normal_form hmatches
  exact ⟨validate_properties_ok.mpr hmatches, again, hagain, same_identity_of_form h hform⟩

/-! ## Publication -/

/-- A found validation result is that of a validation without errors. -/
theorem validation_result_cases {α : Type} (validation : Validation) (found : Identity → α)
    (malformed : JSString → α) :
    (∃ identity, validation.ok ∧ validation.identity = some identity ∧
        validationResult validation found malformed = found identity) ∨
      ∃ message, validationResult validation found malformed = malformed message := by
  unfold validationResult
  split
  · rename_i identity hok hidentity
    exact Or.inl ⟨identity, hok, hidentity, rfl⟩
  · exact Or.inr ⟨_, rfl⟩

variable {json : Json}

/-- The identity of a valid versioned value is normal. -/
theorem found_identity_normal {value : JSString}
    (h : foundIdentity json value = some identity) : IsNormal identity := by
  have hparsed : parseMetadataValue json value = .found identity := by
    unfold foundIdentity at h
    split at h
    · rename_i hparsed
      cases h
      exact hparsed
    · cases h
  have hnormal (parsed : JsonValue)
      (hresult : validationResult (validateAgentIdentityMetadata parsed) ParsedValue.found
        .malformed = .found identity) : IsNormal identity := by
    rcases validation_result_cases (validateAgentIdentityMetadata parsed) ParsedValue.found
      .malformed with ⟨other, hok, hother, heq⟩ | ⟨message, heq⟩
    · rw [heq] at hresult
      cases hresult
      exact validated_normal hok hother
    · rw [heq] at hresult
      cases hresult
  unfold parseMetadataValue at hparsed
  split at hparsed
  · split_ifs at hparsed
    exact hnormal _ hparsed
  · split_ifs at hparsed
    · split at hparsed
      · cases hparsed
      · cases hparsed
    · split at hparsed
      · cases hparsed
      · exact hnormal _ hparsed

/-- The identity of the bridge fallback is normal. -/
theorem bridge_found_normal {values records : List JSString} {record : JSString}
    (h : parseHeadlessProfileRecords values = some (.found identity record records)) :
    IsNormal identity := by
  unfold parseHeadlessProfileRecords at h
  dsimp only at h
  split_ifs at h
  split at h
  · cases h
  · have hresult := Option.some.inj h
    rcases validation_result_cases (validateAgentIdentityMetadata
        (.object (values.foldl bridgeStep ⟨versionOne, [], none⟩).metadata)) (fun identity =>
        BridgeResult.found identity
          (join (values.foldl bridgeStep ⟨versionOne, [], none⟩).records [unit '\n'])
          (values.foldl bridgeStep ⟨versionOne, [], none⟩).records) (fun message =>
        .malformed message (values.foldl bridgeStep ⟨versionOne, [], none⟩).records) with
      ⟨other, hok, hother, heq⟩ | ⟨message, heq⟩
    · rw [heq] at hresult
      cases hresult
      exact validated_normal hok hother
    · rw [heq] at hresult
      cases hresult

/-- An identity that comes up at the end of the loop is that of the bridge fallback. -/
theorem finish_identity {values : List JSString} {result : ParseResult}
    (hnone : result.identity = none) (h : (finishParse values result).identity = some identity) :
    ∃ record records, parseHeadlessProfileRecords values =
      some (.found identity record records) := by
  unfold finishParse at h
  dsimp only at h
  split at h
  · rename_i other record records hbridge
    cases h
    split_ifs at hbridge
    exact ⟨record, records, hbridge⟩
  · rw [hnone] at h
    cases h
  · split_ifs at h
    · rw [hnone] at h
      cases h
    · rw [hnone] at h
      cases h
    · rw [hnone] at h
      cases h

/-- Every identity that is parsed from TXT records is normal. -/
theorem parsed_normal {records : List TxtRecord}
    (h : (parseTxtRecords json records).identity = some identity) : IsNormal identity := by
  unfold parseTxtRecords at h
  rcases first_found json (records.map joinTxtRecord) with
    hnone | ⟨before, value, after, other, hvalues, hbefore, hfound⟩
  · rw [parse_loop_none_found hnone] at h
    obtain ⟨record, bridge, hbridge⟩ := finish_identity rfl h
    exact bridge_found_normal hbridge
  · simp only [hvalues] at h
    rw [parse_loop_found hbefore hfound] at h
    cases h
    exact found_identity_normal hfound

/-- The TXT value that publishes an identity. -/
def publication (json : Json) (identity : Identity) : JSString :=
  metadataPrefix ++ json.stringify (.object (identityObject identity))

/-- A normal identity is found again where it is published. -/
theorem publication_found (h : IsNormal identity)
    (hjson : PrintsObject json (identityObject identity))
    (hlength : (publication json identity).length ≤ maxTxtValueLength) {record : TxtRecord}
    (hrecord : joinTxtRecord record = publication json identity) :
    ∃ again, outcome (parseTxtRecords json [record]) = (.found, some again) ∧
      SameIdentity identity again := by
  obtain ⟨hok, again, hagain, hsame⟩ := normal_accepted_again h
  have hversioned : isVersioned (joinTxtRecord record) := by
    rw [hrecord]
    exact (notations_versioned _).1
  refine ⟨again, ?_, hsame⟩
  rw [parse_single hversioned, hrecord, publication, printed_object_parse hjson hlength, readObject,
    validationResult, hok, hagain]
  rfl

/-- Normalisation is idempotent up to the order of keys, and an identity that was found is found
again where its object is printed and published. -/
theorem identity_republished (json : Json) :
    (∀ value identity, (validateAgentIdentityMetadata value).ok →
      (validateAgentIdentityMetadata value).identity = some identity →
      (validateAgentIdentityMetadata (.object (identityObject identity))).ok ∧
        ∃ again, (validateAgentIdentityMetadata (.object (identityObject identity))).identity =
          some again ∧ SameIdentity identity again) ∧
      ∀ records identity, (parseTxtRecords json records).status = .found →
        (parseTxtRecords json records).identity = some identity →
        PrintsObject json (identityObject identity) →
        (publication json identity).length ≤ maxTxtValueLength →
        ∀ record, joinTxtRecord record = publication json identity →
          (parseTxtRecords json [record]).status = .found ∧
            ∃ again, (parseTxtRecords json [record]).identity = some again ∧
              SameIdentity identity again := by
  refine ⟨fun value identity hok hidentity =>
      normal_accepted_again (validated_normal hok hidentity),
    fun records identity _ hidentity hjson hlength record hrecord => ?_⟩
  obtain ⟨again, houtcome, hsame⟩ :=
    publication_found (parsed_normal hidentity) hjson hlength hrecord
  exact ⟨congrArg Prod.fst houtcome, again, congrArg Prod.snd houtcome, hsame⟩

/-- The identity of one capability that was given as a word. -/
def wordIdentity : Identity where
  ready := none
  strings := []
  capabilities := [[(text "id", text "a"), (text "name", text "a")]]
  protocols := []
  extra := none

/-- The language prints it as an object that it reads back. -/
theorem word_identity_printed (syntaxError : JSString → JSError) :
    PrintsObject (languageJson syntaxError) (identityObject wordIdentity) := by
  have hentry : IsLanguageObject
      [(text "id", .string (text "a")), (text "name", .string (text "a"))] := by
    refine ⟨by decide, ?_⟩
    simp only [List.forall_mem_cons]
    exact ⟨.string _, .string _, fun _ hnone => absurd hnone List.not_mem_nil⟩
  have hlist : IsLanguageValue
      (.array [entryObject [(text "id", text "a"), (text "name", text "a")]]) :=
    .array (List.forall_mem_singleton.mpr hentry.value)
  have hlanguage : IsLanguageObject (identityObject wordIdentity) :=
    version_one_language.set hlist (text "capabilities")
  exact ⟨stringify_object [] (identityObject wordIdentity),
    @language_json_shown syntaxError (.object (identityObject wordIdentity)) hlanguage.value⟩

/-- The word is found in a bridge record, and again in the printed object. -/
theorem identity_republished_example :
    (parseTxtRecords (languageJson JSError.mk) [.single (text "agent-capabilities: a")]).identity =
        some wordIdentity ∧
      (parseTxtRecords (languageJson JSError.mk) [.segments [metadataPrefix,
        text
          "\x7b\"version\":1,\"capabilities\":[\x7b\"id\":\"a\",\"name\":\"a\"\x7d]\x7d"]]).status =
          .found :=
  ⟨rfl, ((identity_republished (languageJson JSError.mk)).2
    [.single (text "agent-capabilities: a")] wordIdentity (by decide +kernel) rfl
    (word_identity_printed JSError.mk) (by decide +kernel)
    (.segments [metadataPrefix,
      text "\x7b\"version\":1,\"capabilities\":[\x7b\"id\":\"a\",\"name\":\"a\"\x7d]\x7d"])
    (by decide +kernel)).1⟩

end AgentResolver
