import AgentResolver.Metadata.SchemaLemmas
import Mathlib.Data.List.Forall2

/-!
# The schema of identity metadata

What `validateAgentIdentityMetadata` accepts and returns, said without errors and loops.
`MatchesSchema` describes the objects that are accepted, by how their properties read, and
`IsNormalForm` the identity that such an object stands for. `normalize_boolean_iff`,
`string_fields_read` and `normalize_entries_spec` relate the normalisers to it, one for each kind
of field.
-/

namespace AgentResolver

open JavaScript

/-! ## Booleans -/

def affirmativeWords : List JSString := [text "1", text "true", text "yes", text "ready"]

def negativeWords : List JSString := [text "0", text "false", text "no", text "not-ready"]

/-- `BooleanForm v b` says the value `v` stands for the boolean `b`. -/
inductive BooleanForm : JsonValue → Bool → Prop where
  | boolean (b : Bool) : BooleanForm (.boolean b) b
  | number (n : Number) : BooleanForm (.number n) (n ≠ .finite 0)
  | affirmative {s : JSString} (h : toLowerCase (trim s) ∈ affirmativeWords) :
      BooleanForm (.string s) true
  | negative {s : JSString} (h : toLowerCase (trim s) ∈ negativeWords) :
      BooleanForm (.string s) false

/-- No word is both affirmative and negative. -/
theorem words_disjoint {s : JSString} (h : s ∈ affirmativeWords) : s ∉ negativeWords := by
  have hall : ∀ word ∈ affirmativeWords, word ∉ negativeWords := by decide
  exact hall s h

/-- The boolean normaliser returns the boolean that a present value stands for. -/
theorem normalize_boolean_form {read : Option JsonValue} {field : JSString} {b : Bool} :
    normalizeBoolean read field = .ok (some b) ↔
      ∃ value, present read = some value ∧ BooleanForm value b := by
  constructor
  · intro h
    unfold normalizeBoolean at h
    split at h
    · cases h
    · rename_i value hvalue
      cases h
      exact ⟨_, hvalue, .boolean b⟩
    · rename_i n hvalue
      cases h
      exact ⟨_, hvalue, .number n⟩
    · rename_i s hvalue
      refine ⟨_, hvalue, ?_⟩
      dsimp only at h
      split_ifs at h with hyes hno
      · cases h
        exact .affirmative hyes
      · cases h
        exact .negative hno
    · cases h
  · rintro ⟨value, hvalue, hform⟩
    rw [normalizeBoolean, hvalue]
    cases hform with
    | boolean => rfl
    | number => rfl
    | affirmative h => exact if_pos h
    | negative h => exact (if_neg fun hyes => words_disjoint hyes h).trans (if_pos h)

theorem normalize_boolean_absent {read : Option JsonValue} {field : JSString} :
    normalizeBoolean read field = .ok none ↔ present read = none := by
  constructor
  · intro h
    have hsome := ready_is_some h
    simpa using hsome.symm
  · intro h
    rw [normalizeBoolean, h]

/-- The value is absent or stands for a boolean. -/
def IsBooleanLike (read : Option JsonValue) : Prop :=
  ∀ value, present read = some value → ∃ b, BooleanForm value b

/-- The boolean normaliser pushes an error exactly on other values. -/
theorem boolean_like_iff {read : Option JsonValue} {field : JSString} :
    IsBooleanLike read ↔ ∃ ready, normalizeBoolean read field = .ok ready := by
  constructor
  · intro h
    cases hread : present read with
    | none => exact ⟨none, normalize_boolean_absent.mpr hread⟩
    | some value =>
        obtain ⟨b, hb⟩ := h value hread
        exact ⟨some b, normalize_boolean_form.mpr ⟨value, hread, hb⟩⟩
  · rintro ⟨ready, hready⟩ value hvalue
    obtain ⟨b, rfl⟩ : ∃ b, ready = some b :=
      Option.isSome_iff_exists.mp (by rw [ready_is_some hready, hvalue]; rfl)
    obtain ⟨value', hvalue', hform⟩ := normalize_boolean_form.mp hready
    rw [hvalue] at hvalue'
    cases hvalue'
    exact ⟨b, hform⟩

/-! ## String fields -/

section

variable {read : JSString → Option JsonValue} {label : JSString → JSString}
  {fields : List JSString}

/-- The trimmed text of a string value. -/
def trimmedText : JsonValue → Option JSString
  | .string s => some (trim s)
  | _ => none

/-- The normal form of a listed field: its trimmed text, if it is present. -/
def fieldText (read : JSString → Option JsonValue) (field : JSString) : Option JSString :=
  (present (read field)).bind trimmedText

theorem field_text_eq {field s : JSString} (h : present (read field) = some (.string s)) :
    fieldText read field = some (trim s) := by
  rw [fieldText, h]
  rfl

theorem field_text_absent {field : JSString} (h : present (read field) = none) :
    fieldText read field = none := by
  rw [fieldText, h]
  rfl

/-- Every listed field that is present is a nonblank string of at most 2048 units. -/
def AreValidStrings (read : JSString → Option JsonValue) (fields : List JSString) : Prop :=
  ∀ field ∈ fields, ∀ value, present (read field) = some value → IsValidString value

/-- The normal forms of the listed fields that are present, in the order of the list. -/
def presentTexts (read : JSString → Option JsonValue) (fields : List JSString) :
    Properties JSString :=
  fields.filterMap fun field => (fieldText read field).map fun s => (field, s)

/-- A loop over string fields without errors collects the normal forms. -/
theorem collected_eq (h : AreValidStrings read fields) :
    collectStringFields read label fields = ([], presentTexts read fields) := by
  induction fields with
  | nil => rfl
  | cons field rest ih =>
      have hrest := ih fun f hf => h f (List.mem_cons_of_mem _ hf)
      rw [collectStringFields, hrest, presentTexts, presentTexts]
      cases hread : present (read field) with
      | none => rw [List.filterMap_cons_none (by rw [field_text_absent hread]; rfl)]
      | some value =>
          obtain ⟨s, rfl, hvisible, hshort⟩ := h field List.mem_cons_self value hread
          rw [List.filterMap_cons_some (by rw [field_text_eq hread]; rfl)]
          simp only [validate_string_field_ok.mpr ⟨rfl, hvisible, hshort⟩]

/-- The normal forms, read at any key. -/
theorem present_texts_read (key : JSString) :
    getProperty (presentTexts read fields) key =
      if key ∈ fields then fieldText read key else none := by
  induction fields with
  | nil => rfl
  | cons field rest ih =>
      rw [presentTexts] at ih ⊢
      by_cases hkey : field = key
      · subst hkey
        rw [if_pos List.mem_cons_self]
        cases hfield : fieldText read field with
        | none => rw [List.filterMap_cons_none (by rw [hfield]; rfl), ih, hfield, ite_self]
        | some s => rw [List.filterMap_cons_some (by rw [hfield]; rfl), getProperty, if_pos rfl]
      · have hmem : key ∈ field :: rest ↔ key ∈ rest := by
          rw [List.mem_cons, or_iff_right fun heq => hkey heq.symm]
        simp only [hmem, ← ih]
        cases hfield : fieldText read field with
        | none => rw [List.filterMap_cons_none (by rw [hfield]; rfl)]
        | some s => rw [List.filterMap_cons_some (by rw [hfield]; rfl), getProperty, if_neg hkey]

/-- A valid field is present exactly when it has a normal form, which is not empty. -/
theorem field_text_of_valid {field : JSString}
    (h : ∀ value, present (read field) = some value → IsValidString value) :
    (fieldText read field).isSome = (present (read field)).isSome ∧
      ∀ s, fieldText read field = some s → s ≠ [] := by
  cases hread : present (read field) with
  | none =>
      rw [field_text_absent hread]
      exact ⟨rfl, fun s hs => by cases hs⟩
  | some value =>
      obtain ⟨t, rfl, hvisible, _⟩ := h value hread
      rw [field_text_eq hread]
      refine ⟨rfl, fun s hs => ?_⟩
      cases hs
      exact hvisible

end

/-! ## Entries of lists -/

section

variable {spec : EntryKind}

/-- A valid entry: a valid string, or an object whose listed fields are valid and that has an id or
a name. -/
inductive IsEntry (spec : EntryKind) : JsonValue → Prop where
  | string {s : JSString} (h : IsValidString (.string s)) : IsEntry spec (.string s)
  | object {members : Properties JsonValue}
      (fields : AreValidStrings (getProperty members) spec.fields)
      (named : (present (getProperty members (text "id"))).isSome ∨
        (present (getProperty members (text "name"))).isSome) : IsEntry spec (.object members)

/-- The normal form of an object, read at a key: `id` and `name` stand in for each other. -/
def entryText (fields : List JSString) (read : JSString → Option JsonValue) (key : JSString) :
    Option JSString :=
  if key = text "id" then (fieldText read (text "id")).or (fieldText read (text "name"))
  else if key = text "name" then (fieldText read (text "name")).or (fieldText read (text "id"))
  else if key ∈ fields then fieldText read key
  else none

/-- `EntryForm spec v entry` says `entry` is the normal form of the valid entry `v`. -/
inductive EntryForm (spec : EntryKind) : JsonValue → SimpleObject → Prop where
  | string (s : JSString) : EntryForm spec (.string s) (stringEntry s)
  | object {members : Properties JsonValue} {entry : SimpleObject}
      (reads : ∀ key, getProperty entry key = entryText spec.fields (getProperty members) key) :
      EntryForm spec (.object members) entry

/-- A valid object has a normal form, and the normaliser returns it. -/
theorem normalize_simple_object_valid (hid : text "id" ∈ spec.fields)
    (hname : text "name" ∈ spec.fields) {members : Properties JsonValue}
    (hfields : AreValidStrings (getProperty members) spec.fields)
    (hnamed : (present (getProperty members (text "id"))).isSome ∨
      (present (getProperty members (text "name"))).isSome) :
    ∃ entry, normalizeSimpleObject members spec.fields spec.kind = ([], some entry) ∧
      EntryForm spec (.object members) entry := by
  obtain ⟨hidSome, hidVisible⟩ := field_text_of_valid (hfields _ hid)
  obtain ⟨hnameSome, hnameVisible⟩ := field_text_of_valid (hfields _ hname)
  rw [← hidSome, ← hnameSome, ← Bool.or_eq_true, ← Option.isSome_or] at hnamed
  obtain ⟨idSource, hsource⟩ := Option.isSome_iff_exists.mp hnamed
  have hvisible : idSource.isEmpty = false := by
    rcases Option.or_eq_some_iff.mp hsource with h | ⟨_, h⟩
    · simpa using hidVisible _ h
    · simpa using hnameVisible _ h
  rw [normalizeSimpleObject, collected_eq hfields]
  simp only [present_texts_read, if_pos hid, if_pos hname, hsource, hvisible, Bool.false_eq_true,
    if_false]
  refine ⟨_, rfl, .object fun key => ?_⟩
  rw [get_set_other _ _ (by decide : text "name" ≠ text "id"), present_texts_read, if_pos hname,
    get_set, get_set, present_texts_read, entryText]
  -- `id` and `name` are set after the other fields, each from the other one if it is absent.
  by_cases hkeyId : key = text "id"
  · rw [if_neg (hkeyId ▸ by decide), if_pos hkeyId, if_pos hkeyId, hsource]
  · by_cases hkeyName : key = text "name"
    · rw [if_pos hkeyName, if_neg hkeyId, if_pos hkeyName]
      cases hread : fieldText (getProperty members) (text "name") with
      | none =>
          rw [hread, Option.or_none] at hsource
          rw [Option.getD_none, Option.none_or, hsource]
      | some name => rfl
    · rw [if_neg hkeyName, if_neg hkeyId, if_neg hkeyId, if_neg hkeyName]

/-- The object normaliser pushes no error exactly on valid objects. -/
theorem normalize_simple_object_iff (hid : text "id" ∈ spec.fields)
    (hname : text "name" ∈ spec.fields) {members : Properties JsonValue} :
    (normalizeSimpleObject members spec.fields spec.kind).1 = [] ↔
      IsEntry spec (.object members) := by
  constructor
  · intro h
    have herrors : (collectStringFields (getProperty members)
        (fun field => spec.kind ++ unit '.' :: field) spec.fields).1 = [] := by
      rw [normalizeSimpleObject] at h
      dsimp only at h
      split at h
      · exact (List.append_eq_nil_iff.mp h).1
      · split at h
        · exact (List.append_eq_nil_iff.mp h).1
        · exact h
    have hfields : AreValidStrings (getProperty members) spec.fields :=
      string_fields_valid.mp herrors
    refine .object hfields ?_
    rw [← (field_text_of_valid (hfields _ hid)).1, ← (field_text_of_valid (hfields _ hname)).1,
      ← Bool.or_eq_true, ← Option.isSome_or]
    rw [normalizeSimpleObject, collected_eq hfields] at h
    simp only [present_texts_read, if_pos hid, if_pos hname] at h
    -- Without an id and a name the normaliser pushes an error of its own.
    by_contra hnone
    rw [Option.not_isSome_iff_eq_none.mp hnone] at h
    cases h
  · rintro (_ | ⟨hfields, hnamed⟩)
    obtain ⟨entry, hentry, _⟩ := normalize_simple_object_valid hid hname hfields hnamed
    rw [hentry]

/-- One entry of a list: an error is pushed exactly on invalid entries, and a valid one is pushed
in its normal form. -/
theorem normalize_entry_spec (hid : text "id" ∈ spec.fields) (hname : text "name" ∈ spec.fields)
    (value : JsonValue) :
    ((normalizeEntry spec value).1 = [] ↔ IsEntry spec value) ∧
      (IsEntry spec value →
        ∃ entry, normalizeEntry spec value = ([], some entry) ∧ EntryForm spec value entry) := by
  cases value with
  | string s =>
      have hvalid : IsValidString (.string s) →
          normalizeEntry spec (.string s) = ([], some (stringEntry s)) := by
        rintro ⟨t, ht, hvisible, hshort⟩
        cases ht
        simp only [normalizeEntry, validate_string_field_ok.mpr ⟨rfl, hvisible, hshort⟩]
        rfl
      refine ⟨⟨fun h => .string ?_, ?_⟩, ?_⟩
      · rw [is_valid_string_iff spec.kind]
        cases hfield : validateStringField (.string s) spec.kind with
        | ok t => exact ⟨t, rfl⟩
        | error error =>
            simp only [normalizeEntry, hfield] at h
            cases h
      · rintro ⟨hstring⟩
        rw [hvalid hstring]
      · rintro ⟨hstring⟩
        exact ⟨stringEntry s, hvalid hstring, .string s⟩
  | object members =>
      refine ⟨normalize_simple_object_iff hid hname, ?_⟩
      rintro (_ | ⟨hfields, hnamed⟩)
      exact normalize_simple_object_valid hid hname hfields hnamed
  | null | boolean b | number n | array items =>
      exact ⟨iff_of_false (fun h => by cases h) (fun h => by cases h), fun h => by cases h⟩

/-- The text between two commas of a string, or at one of its ends, trimmed; blank pieces are left
out. -/
def commaPieces (value : JSString) : List JSString :=
  ((split value (unit ',')).filter fun piece => trim piece ≠ []).map trim

theorem comma_items_eq (value : JSString) : commaItems value = commaPieces value := by
  have hblank : (fun item : JSString => !item.isEmpty) ∘ trim =
      fun piece => decide (trim piece ≠ []) := by
    funext piece
    show (!(trim piece).isEmpty) = decide (trim piece ≠ [])
    cases trim piece with
    | nil => rfl
    | cons c rest => rfl
  rw [commaItems, commaPieces, List.filter_map, hblank]

/-- The entries of a list value: the items of an array, or the pieces of a string. -/
def entriesOf : JsonValue → Option (List JsonValue)
  | .array items => some items
  | .string value => some ((commaPieces value).map .string)
  | _ => none

/-- The entries that a list field holds. -/
def listEntries (read : Option JsonValue) : List JsonValue :=
  ((present read).bind entriesOf).getD []

/-- The field is absent, or holds a list of valid entries that is not too long. -/
structure IsEntryList (spec : EntryKind) (read : Option JsonValue) : Prop where
  list : ∀ value, present read = some value → (entriesOf value).isSome
  count : (listEntries read).length ≤ spec.maxCount
  entries : ∀ entry ∈ listEntries read, IsEntry spec entry

/-- The loop over the entries of a list. -/
theorem normalize_entries_of_list {read : Option JsonValue} {value : JsonValue}
    (hread : present read = some value) (hlist : (entriesOf value).isSome) :
    normalizeEntries spec read =
      ((if (listEntries read).length > spec.maxCount then
          [spec.plural ++ text " has too many entries"] else []) ++
        ((listEntries read).map (normalizeEntry spec)).flatMap Prod.fst,
        ((listEntries read).map (normalizeEntry spec)).filterMap Prod.snd) := by
  simp only [normalizeEntries, listEntries, hread, Option.map_some, Option.bind_some]
  cases value with
  | array items => rfl
  | string s => rw [splitCommaList, entriesOf, comma_items_eq, Option.getD_some]
  | null | boolean b | number n | object members => cases hlist

/-- Valid entries are pushed in their normal forms, without loss. -/
theorem normalize_valid_entries (hid : text "id" ∈ spec.fields) (hname : text "name" ∈ spec.fields)
    {entries : List JsonValue} (h : ∀ entry ∈ entries, IsEntry spec entry) :
    List.Forall₂ (EntryForm spec) entries
      ((entries.map (normalizeEntry spec)).filterMap Prod.snd) := by
  induction entries with
  | nil => exact .nil
  | cons value rest ih =>
      obtain ⟨entry, hentry, hform⟩ :=
        (normalize_entry_spec hid hname value).2 (h value List.mem_cons_self)
      rw [List.map_cons, List.filterMap_cons_some (by rw [hentry])]
      exact .cons hform (ih fun e he => h e (List.mem_cons_of_mem _ he))

/-- A list field: no error is pushed exactly on valid lists, and the entries of a valid list are
pushed in their normal forms. -/
theorem normalize_entries_spec (hid : text "id" ∈ spec.fields) (hname : text "name" ∈ spec.fields)
    (read : Option JsonValue) :
    ((normalizeEntries spec read).1 = [] ↔ IsEntryList spec read) ∧
      (IsEntryList spec read →
        List.Forall₂ (EntryForm spec) (listEntries read) (normalizeEntries spec read).2) := by
  cases hread : present read with
  | none =>
      have hentries : listEntries read = [] := by rw [listEntries, hread]; rfl
      have hnormal : normalizeEntries spec read = ([], []) := by
        rw [normalizeEntries, hread]
        rfl
      rw [hnormal, hentries]
      refine ⟨iff_of_true rfl ⟨?_, ?_, ?_⟩, fun _ => .nil⟩
      · intro value hvalue
        rw [hread] at hvalue
        cases hvalue
      · rw [hentries]
        exact Nat.zero_le _
      · rw [hentries]
        exact fun entry hentry => absurd hentry List.not_mem_nil
  | some value =>
      by_cases hlist : (entriesOf value).isSome
      · rw [normalize_entries_of_list hread hlist]
        refine ⟨?_, fun h => normalize_valid_entries hid hname h.entries⟩
        simp only [List.append_eq_nil_iff, List.flatMap_eq_nil_iff, List.forall_mem_map,
          (normalize_entry_spec hid hname _).1, ite_eq_right_iff, List.cons_ne_nil, imp_false,
          Nat.not_lt]
        constructor
        · rintro ⟨hcount, hentries⟩
          refine ⟨fun other hother => ?_, hcount, hentries⟩
          rw [hread] at hother
          cases hother
          exact hlist
        · rintro ⟨_, hcount, hentries⟩
          exact ⟨hcount, hentries⟩
      -- A value that is no list is rejected before any entry is read.
      · have hinvalid : ¬ IsEntryList spec read := fun h => hlist (h.list value hread)
        refine ⟨iff_of_false (fun h => ?_) hinvalid, fun h => absurd h hinvalid⟩
        rw [normalizeEntries, hread] at h
        cases value with
        | array items => exact hlist rfl
        | string s => exact hlist rfl
        | null | boolean b | number n | object members => cases h

end

/-! ## Whole objects -/

/-- The value that the validator reads for the version. -/
def versionSource (read : JSString → Option JsonValue) : Option JsonValue :=
  (present (read (text "version"))).or (read (text "v"))

/-- The value that the validator reads for the protocols. -/
def protocolSource (read : JSString → Option JsonValue) : Option JsonValue :=
  (present (read (text "protocols"))).or (read (text "protocol"))

/-- The objects that are metadata, by how their properties read. -/
structure MatchesSchema (read : JSString → Option JsonValue) : Prop where
  version : versionSource read = some (.number (.finite 1)) ∨
    versionSource read = some (.string (text "1"))
  ready : IsBooleanLike (read (text "ready"))
  strings : AreValidStrings (stringSource read) optionalStringFields
  capabilities : IsEntryList capabilityEntries (read (text "capabilities"))
  protocols : IsEntryList protocolEntries (protocolSource read)
  extra : ∀ value, present (read (text "extra")) = some value → ∃ members, value = .object members
  signal : (∃ field ∈ optionalStringFields, (present (stringSource read field)).isSome) ∨
    (present (read (text "ready"))).isSome ∨ listEntries (read (text "capabilities")) ≠ [] ∨
    listEntries (protocolSource read) ≠ []

/-- `IsNormalForm read identity` says `identity` is what an object that reads so stands for. Its
version is 1. -/
structure IsNormalForm (read : JSString → Option JsonValue) (identity : Identity) : Prop where
  ready : ∀ b, identity.ready = some b ↔
    ∃ value, present (read (text "ready")) = some value ∧ BooleanForm value b
  strings : identity.strings = presentTexts (stringSource read) optionalStringFields
  capabilities : List.Forall₂ (EntryForm capabilityEntries)
    (listEntries (read (text "capabilities"))) identity.capabilities
  protocols : List.Forall₂ (EntryForm protocolEntries) (listEntries (protocolSource read))
    identity.protocols
  extra : ∀ members, identity.extra = some members ↔
    present (read (text "extra")) = some (.object members)

theorem is_version_one_iff {version : Option JsonValue} :
    isVersionOne version ↔
      version = some (.number (.finite 1)) ∨ version = some (.string (text "1")) := by
  unfold isVersionOne
  split
  · simp
  · simp
  · rename_i hnumber hstring
    refine iff_of_false (by simp) ?_
    rintro (rfl | rfl)
    · exact hnumber _ rfl
    · exact hstring _ rfl

/-- Related lists are empty together. -/
theorem forms_nil_iff {spec : EntryKind} {entries : List JsonValue} {forms : List SimpleObject}
    (h : List.Forall₂ (EntryForm spec) entries forms) : forms ≠ [] ↔ entries ≠ [] := by
  rw [ne_eq, ne_eq, ← List.length_eq_zero_iff, ← List.length_eq_zero_iff, h.length_eq]

theorem normalize_capabilities_spec (read : Option JsonValue) :
    ((normalizeCapabilities read).1 = [] ↔ IsEntryList capabilityEntries read) ∧
      (IsEntryList capabilityEntries read → List.Forall₂ (EntryForm capabilityEntries)
        (listEntries read) (normalizeCapabilities read).2) :=
  normalize_entries_spec (by decide) (by decide) read

theorem normalize_protocols_spec (read : Option JsonValue) :
    ((normalizeProtocols read).1 = [] ↔ IsEntryList protocolEntries read) ∧
      (IsEntryList protocolEntries read → List.Forall₂ (EntryForm protocolEntries)
        (listEntries read) (normalizeProtocols read).2) :=
  normalize_entries_spec (by decide) (by decide) read

variable {read : JSString → Option JsonValue}

/-- The validator pushes no error exactly on objects that match the schema. -/
theorem is_valid_iff : IsValid read ↔ MatchesSchema read := by
  constructor
  · rintro ⟨hversion, hready, hstrings, hcapabilities, hprotocols, hsignal, hextra⟩
    have hcapabilityList := (normalize_capabilities_spec _).1.mp hcapabilities
    have hprotocolList := (normalize_protocols_spec _).1.mp hprotocols
    refine ⟨is_version_one_iff.mp hversion, boolean_like_iff.mpr hready,
      string_fields_valid.mp hstrings, hcapabilityList, hprotocolList, hextra, ?_⟩
    -- The code asks for an entry of the normalised lists, the schema for one of the given lists.
    rwa [forms_nil_iff ((normalize_capabilities_spec _).2 hcapabilityList),
      forms_nil_iff ((normalize_protocols_spec _).2 hprotocolList)] at hsignal
  · rintro ⟨hversion, hready, hstrings, hcapabilities, hprotocols, hextra, hsignal⟩
    refine ⟨is_version_one_iff.mpr hversion, boolean_like_iff.mp hready,
      string_fields_valid.mpr hstrings, (normalize_capabilities_spec _).1.mpr hcapabilities,
      (normalize_protocols_spec _).1.mpr hprotocols, ?_, hextra⟩
    rw [forms_nil_iff ((normalize_capabilities_spec _).2 hcapabilities)]
    exact hsignal.imp_right (Or.imp_right (Or.imp_right
      (forms_nil_iff ((normalize_protocols_spec _).2 hprotocols)).mpr))

theorem validate_properties_ok : (validateProperties read).ok ↔ MatchesSchema read :=
  (validate_ok_iff read).trans is_valid_iff

def objectMembers : JsonValue → Option (Properties JsonValue)
  | .object members => some members
  | _ => none

theorem extra_members (extra : Option JsonValue) :
    (match extra with
      | none => (([], none) : List JSString × Option (Properties JsonValue))
      | some (.object members) => ([], some members)
      | some _ => ([text "extra must be an object when provided"], none)).2 =
      extra.bind objectMembers := by
  cases extra with
  | none => rfl
  | some value => cases value <;> rfl

/-- The identity that the validator returns, field by field. -/
theorem validate_identity {ready : Option Bool}
    (hready : normalizeBoolean (read (text "ready")) (text "ready") = .ok ready) :
    (validateProperties read).identity = some {
      ready
      strings := (collectStringFields (stringSource read) id optionalStringFields).2
      capabilities := (normalizeCapabilities (read (text "capabilities"))).2
      protocols := (normalizeProtocols (protocolSource read)).2
      extra := (present (read (text "extra"))).bind objectMembers } := by
  rw [validateProperties, hready, ← extra_members]
  rfl

/-- On an object that matches the schema the validator returns the normal form. -/
theorem validate_normal_form (h : MatchesSchema read) :
    ∃ identity, (validateProperties read).identity = some identity ∧
      IsNormalForm read identity := by
  obtain ⟨ready, hready⟩ := boolean_like_iff.mp h.ready
  refine ⟨_, validate_identity hready, ?_, ?_, (normalize_capabilities_spec _).2 h.capabilities,
    (normalize_protocols_spec _).2 h.protocols, ?_⟩
  · intro b
    rw [← normalize_boolean_form, hready, Except.ok.injEq]
  · exact congrArg Prod.snd (collected_eq h.strings)
  · intro members
    cases hextra : present (read (text "extra")) with
    | none => simp
    | some value =>
        obtain ⟨others, rfl⟩ := h.extra value hextra
        simp [objectMembers]

/-- The validator accepts exactly the JSON objects that match the schema, and returns for each of
them its normal form. -/
theorem validate_exact (value : JsonValue) :
    ((validateAgentIdentityMetadata value).ok ↔
        ∃ members, value = .object members ∧ MatchesSchema (getProperty members)) ∧
      ((validateAgentIdentityMetadata value).ok →
        ∃ members identity, value = .object members ∧
          (validateAgentIdentityMetadata value).identity = some identity ∧
          IsNormalForm (getProperty members) identity) := by
  by_cases hobject : ∃ members, value = .object members
  · obtain ⟨members, rfl⟩ := hobject
    refine ⟨⟨fun h => ⟨members, rfl, validate_properties_ok.mp h⟩, ?_⟩, fun h => ?_⟩
    · rintro ⟨others, heq, hmatches⟩
      cases heq
      exact validate_properties_ok.mpr hmatches
    · obtain ⟨identity, hidentity, hform⟩ := validate_normal_form (validate_properties_ok.mp h)
      exact ⟨members, identity, rfl, hidentity, hform⟩
  · have hrejected : ¬ (validateAgentIdentityMetadata value).ok := by
      cases value with
      | object members => exact absurd ⟨members, rfl⟩ hobject
      | null | boolean b | number n | string s | array items => exact Bool.false_ne_true
    refine ⟨iff_of_false hrejected ?_, fun h => absurd h hrejected⟩
    rintro ⟨members, heq, _⟩
    exact hobject ⟨members, heq⟩

end AgentResolver
