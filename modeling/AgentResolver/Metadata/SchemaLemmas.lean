import AgentResolver.Metadata.Schema

/-!
# When metadata is valid

What it takes for the parts of `validateProperties` to push no error: string fields one by one, and
lists of plain strings. `string_fields_valid` and `string_entries_valid` are the two facts.
-/

namespace AgentResolver

open JavaScript

/-- A value that `validateStringField` accepts. -/
def IsValidString (value : JsonValue) : Prop :=
  ∃ s, value = .string s ∧ trim s ≠ [] ∧ s.length ≤ maxStringFieldLength

theorem validate_string_field_ok {value : JsonValue} {field s : JSString} :
    validateStringField value field = .ok s ↔
      value = .string s ∧ trim s ≠ [] ∧ s.length ≤ maxStringFieldLength := by
  cases value with
  | string t =>
      simp only [validateStringField, List.isEmpty_iff]
      split
      · rename_i hempty
        constructor
        · intro h
          cases h
        · rintro ⟨h, hne, _⟩
          cases h
          exact absurd hempty hne
      · rename_i hempty
        split
        · rename_i hlong
          constructor
          · intro h
            cases h
          · rintro ⟨h, _, hshort⟩
            cases h
            exact absurd hshort (Nat.not_le.mpr hlong)
        · rename_i hshort
          constructor
          · intro h
            cases h
            exact ⟨rfl, hempty, Nat.not_lt.mp hshort⟩
          · rintro ⟨h, _, _⟩
            cases h
            rfl
  | null => simp [validateStringField]
  | boolean b => simp [validateStringField]
  | number n => simp [validateStringField]
  | array items => simp [validateStringField]
  | object members => simp [validateStringField]

theorem is_valid_string_iff {value : JsonValue} (field : JSString) :
    IsValidString value ↔ ∃ s, validateStringField value field = .ok s := by
  simp only [IsValidString, validate_string_field_ok]

/-! ## String fields -/

section

variable {read : JSString → Option JsonValue} {label : JSString → JSString}
  {fields : List JSString}

/-- The loop over string fields pushes no error exactly when every present field is valid. -/
theorem string_fields_valid :
    (collectStringFields read label fields).1 = [] ↔
      ∀ field ∈ fields, ∀ value, present (read field) = some value → IsValidString value := by
  induction fields with
  | nil => simp [collectStringFields]
  | cons field rest ih =>
      simp only [collectStringFields, List.forall_mem_cons, ← ih]
      cases hread : present (read field) with
      | none => simp
      | some value =>
          simp only [Option.some.injEq, forall_eq']
          rw [is_valid_string_iff (label field)]
          cases validateStringField value (label field) with
          | ok s => simp
          | error error => simp

/-- Every field that the loop keeps is a present one, and its value is not empty. -/
theorem collected_fields (entry : JSString × JSString)
    (h : entry ∈ (collectStringFields read label fields).2) :
    entry.1 ∈ fields ∧ (present (read entry.1)).isSome ∧ entry.2 ≠ [] := by
  induction fields with
  | nil => simp [collectStringFields] at h
  | cons field rest ih =>
      have hrest : entry ∈ (collectStringFields read label rest).2 →
          entry.1 ∈ field :: rest ∧ (present (read entry.1)).isSome ∧ entry.2 ≠ [] := fun hmem =>
        ⟨List.mem_cons_of_mem _ (ih hmem).1, (ih hmem).2⟩
      simp only [collectStringFields] at h
      split at h
      · exact hrest h
      · rename_i value hread
        split at h
        · rename_i s hvalid
          rcases List.mem_cons.mp h with rfl | h
          · exact ⟨List.mem_cons_self, by simp [hread], (validate_string_field_ok.mp hvalid).2.1⟩
          · exact hrest h
        · exact hrest h

/-- A loop without errors keeps every present field. -/
theorem collected_of_present {field : JSString} {value : JsonValue} (hfield : field ∈ fields)
    (hread : present (read field) = some value)
    (hvalid : (collectStringFields read label fields).1 = []) :
    (getProperty (collectStringFields read label fields).2 field).isSome := by
  induction fields with
  | nil => cases hfield
  | cons first rest ih =>
      have hall := string_fields_valid.mp hvalid
      have hrest : (collectStringFields read label rest).1 = [] :=
        string_fields_valid.mpr fun f hf => hall f (List.mem_cons_of_mem _ hf)
      by_cases hfirst : first = field
      · subst hfirst
        obtain ⟨s, hs⟩ := (is_valid_string_iff (label first)).mp
          (hall first List.mem_cons_self value hread)
        simp [collectStringFields, hread, hs, getProperty]
      · have hmem : field ∈ rest := by
          rcases List.mem_cons.mp hfield with rfl | h
          · exact absurd rfl hfirst
          · exact h
        have htail := ih hmem hrest
        simp only [collectStringFields]
        split
        · exact htail
        · split
          · simpa [getProperty, hfirst] using htail
          · exact htail

/-- In a loop without errors, some nonempty field is kept exactly when some field is present. -/
theorem string_signal (hvalid : (collectStringFields read label fields).1 = []) :
    fields.any (fun field =>
        (getProperty (collectStringFields read label fields).2 field).any (!·.isEmpty)) ↔
      ∃ field ∈ fields, (present (read field)).isSome := by
  have hmem : ∀ {object : Properties JSString} {key value : JSString},
      getProperty object key = some value → (key, value) ∈ object := by
    intro object key value h
    induction object with
    | nil => cases h
    | cons entry rest ih =>
        simp only [getProperty] at h
        split at h
        · rename_i hname
          cases h
          simp [← hname]
        · exact List.mem_cons_of_mem _ (ih h)
  rw [List.any_eq_true]
  constructor
  · rintro ⟨field, hfield, hany⟩
    cases hvalue : getProperty (collectStringFields read label fields).2 field with
    | none => simp [hvalue] at hany
    | some value => exact ⟨field, hfield, (collected_fields _ (hmem hvalue)).2.1⟩
  · rintro ⟨field, hfield, hpresent⟩
    obtain ⟨value, hread⟩ := Option.isSome_iff_exists.mp hpresent
    obtain ⟨s, hs⟩ := Option.isSome_iff_exists.mp (collected_of_present hfield hread hvalid)
    refine ⟨field, hfield, ?_⟩
    have hne := (collected_fields _ (hmem hs)).2.2
    simp [hs, hne]

end

/-! ## Lists of strings -/

variable {spec : EntryKind} {items : List JSString}

/-- The entry of a valid string. -/
def stringEntry (s : JSString) : SimpleObject := [(text "id", trim s), (text "name", trim s)]

/-- A list of strings is valid exactly when it is not too long and every string is valid; its
entries are then those of the strings. -/
theorem string_entries_valid :
    (normalizeEntries spec (some (.array (items.map .string)))).1 = [] ↔
      items.length ≤ spec.maxCount ∧
        ∀ item ∈ items, trim item ≠ [] ∧ item.length ≤ maxStringFieldLength := by
  have hentry : ∀ item, (normalizeEntry spec (.string item)).1 = [] ↔
      trim item ≠ [] ∧ item.length ≤ maxStringFieldLength := by
    intro item
    simp only [normalizeEntry]
    cases hvalid : validateStringField (.string item) spec.kind with
    | ok s =>
        obtain ⟨h, hs⟩ := validate_string_field_ok.mp hvalid
        cases h
        simpa using hs
    | error error =>
        simp only [List.cons_ne_nil, false_iff]
        rintro ⟨hne, hshort⟩
        rw [validate_string_field_ok.mpr ⟨rfl, hne, hshort⟩] at hvalid
        cases hvalid
  simp only [normalizeEntries, present_array, Option.map_some, splitCommaList, List.length_map,
    List.append_eq_nil_iff, List.flatMap_eq_nil_iff, List.map_map, List.forall_mem_map,
    Function.comp_apply]
  refine and_congr ?_ (forall_congr' fun item => imp_congr_right fun _ => hentry item)
  split
  · rename_i hlong
    simp only [List.cons_ne_nil, false_iff]
    omega
  · rename_i hshort
    simp only [true_iff]
    omega

/-- The entries of a valid list of strings. -/
theorem string_entries_eq
    (hvalid : (normalizeEntries spec (some (.array (items.map .string)))).1 = []) :
    (normalizeEntries spec (some (.array (items.map .string)))).2 = items.map stringEntry := by
  have hall := (string_entries_valid.mp hvalid).2
  have hentry : ∀ item ∈ items,
      (normalizeEntry spec (.string item)).2 = some (stringEntry item) := by
    intro item hitem
    simp only [normalizeEntry, validate_string_field_ok.mpr ⟨rfl, hall item hitem⟩]
    rfl
  simp only [normalizeEntries, present_array, Option.map_some, splitCommaList, List.map_map]
  clear hvalid hall
  induction items with
  | nil => rfl
  | cons item rest ih =>
      have hfirst := hentry item List.mem_cons_self
      simp only [List.map_cons, Function.comp_apply, List.filterMap_cons, hfirst]
      rw [ih fun i hi => hentry i (List.mem_cons_of_mem _ hi)]

/-! ## Whole objects -/

/-- The value that the validator reads for a string field. -/
def stringSource (read : JSString → Option JsonValue) (field : JSString) : Option JsonValue :=
  if field = text "skill" then (present (read field)).or (read (text "skillPath")) else read field

/-- An object without errors, part by part. -/
structure IsValid (read : JSString → Option JsonValue) : Prop where
  version : isVersionOne ((present (read (text "version"))).or (read (text "v")))
  ready : ∃ ready, normalizeBoolean (read (text "ready")) (text "ready") = .ok ready
  strings : (collectStringFields (stringSource read) id optionalStringFields).1 = []
  capabilities : (normalizeCapabilities (read (text "capabilities"))).1 = []
  protocols : (normalizeProtocols
    ((present (read (text "protocols"))).or (read (text "protocol")))).1 = []
  signal : (∃ field ∈ optionalStringFields, (present (stringSource read field)).isSome) ∨
    (present (read (text "ready"))).isSome ∨
    (normalizeCapabilities (read (text "capabilities"))).2 ≠ [] ∨
    (normalizeProtocols
      ((present (read (text "protocols"))).or (read (text "protocol")))).2 ≠ []
  extra : ∀ value, present (read (text "extra")) = some value → ∃ members, value = .object members

/-- A readable value is absent exactly when there is none. -/
theorem ready_is_some {value : Option JsonValue} {field : JSString} {ready : Option Bool}
    (h : normalizeBoolean value field = .ok ready) : ready.isSome = (present value).isSome := by
  unfold normalizeBoolean at h
  split at h
  · rename_i hnone
    cases h
    simp [hnone]
  · rename_i hvalue
    cases h
    simp [hvalue]
  · rename_i hvalue
    cases h
    simp [hvalue]
  · rename_i hvalue
    dsimp only at h
    rw [hvalue]
    split_ifs at h
    · cases h
      rfl
    · cases h
      rfl
  · cases h

/-- No error is pushed for `extra` exactly when it is absent or an object. -/
theorem extra_valid {extra : Option JsonValue} :
    (match extra with
      | none => (([], none) : List JSString × Option (Properties JsonValue))
      | some (.object members) => ([], some members)
      | some _ => ([text "extra must be an object when provided"], none)).1 = [] ↔
      ∀ value, extra = some value → ∃ members, value = .object members := by
  cases extra with
  | none => simp
  | some value => cases value <;> simp

/-- The validator pushes no error exactly on valid objects. -/
theorem validate_ok_iff (read : JSString → Option JsonValue) :
    (validateProperties read).ok ↔ IsValid read := by
  have hsignal (ready : Option Bool)
      (hready : normalizeBoolean (read (text "ready")) (text "ready") = .ok ready)
      (hstrings : (collectStringFields (stringSource read) id optionalStringFields).1 = []) :
      (optionalStringFields.any (fun field =>
          (getProperty (collectStringFields (stringSource read) id
            optionalStringFields).2 field).any (!·.isEmpty)) || ready.isSome ||
        !(normalizeCapabilities (read (text "capabilities"))).2.isEmpty ||
        !(normalizeProtocols
          ((present (read (text "protocols"))).or (read (text "protocol")))).2.isEmpty) ↔
        (∃ field ∈ optionalStringFields, (present (stringSource read field)).isSome) ∨
          (present (read (text "ready"))).isSome ∨
          (normalizeCapabilities (read (text "capabilities"))).2 ≠ [] ∨
          (normalizeProtocols
            ((present (read (text "protocols"))).or (read (text "protocol")))).2 ≠ [] := by
    rw [Bool.or_eq_true, Bool.or_eq_true, Bool.or_eq_true, string_signal hstrings,
      ready_is_some hready, or_assoc, or_assoc]
    simp only [Bool.not_eq_true', List.isEmpty_eq_false_iff]
  have hextra := @extra_valid (present (read (text "extra")))
  unfold validateProperties Validation.ok
  cases hready : normalizeBoolean (read (text "ready")) (text "ready") with
  | error error =>
      simp only [List.isEmpty_iff, List.append_eq_nil_iff]
      constructor
      · rintro ⟨⟨⟨⟨⟨⟨_, h⟩, _⟩, _⟩, _⟩, _⟩, _⟩
        cases h
      · rintro ⟨_, ⟨ready, h⟩, _⟩
        rw [hready] at h
        cases h
  | ok ready =>
      simp only [List.isEmpty_iff, List.append_eq_nil_iff]
      constructor
      · rintro ⟨⟨⟨⟨⟨⟨hversion, _⟩, hstrings⟩, hcapabilities⟩, hprotocols⟩, hany⟩, hobject⟩
        refine ⟨?_, ⟨ready, hready⟩, hstrings, hcapabilities, hprotocols, ?_, hextra.mp hobject⟩
        · by_contra hnot
          rw [if_neg hnot] at hversion
          cases hversion
        · refine (hsignal ready hready hstrings).mp ?_
          by_contra hnot
          exact absurd (hany.symm.trans (if_neg hnot)) (by simp)
      · intro h
        refine ⟨⟨⟨⟨⟨⟨if_pos h.version, trivial⟩, h.strings⟩, h.capabilities⟩, h.protocols⟩, ?_⟩,
          hextra.mpr h.extra⟩
        exact if_pos ((hsignal ready hready h.strings).mpr h.signal)

end AgentResolver
