import AgentResolver.Metadata.Recognisers
import AgentResolver.Metadata.SchemaLemmas
import AgentResolver.Sequence.FirstSeen

/-!
# The meaning of bridge records

What a list of bridge records says: the last manifest and the last skill, the distinct capability
items and whether `arp` is spoken. `BridgeFields` is that meaning, `Represents` relates the object
that the loop of `parseHeadlessProfileRecords` builds to it, `apply_represents` is one record and
`bridge_fold` the whole loop. `bridge_fallback_spec` says when the fallback finds an identity.
-/

namespace AgentResolver

open JavaScript Sequence

/-- What one bridge record says. -/
inductive BridgeEntry where
  | endpoint (value : JSString)
  | skill (value : JSString)
  | capabilities (items : List JSString)
  | arp
  deriving DecidableEq

/-- The entry of a record: its key decides the kind, and a blank value says nothing. -/
def bridgeEntry (value : JSString) : Option BridgeEntry :=
  match firstDelimiterIndex value with
  | none => none
  | some index =>
      let key := delimitedKey value index
      let recordValue := trim (value.drop (index + 1))
      if recordValue.isEmpty then none
      else if key = text "agent-manifest" ∨ key = text "manifest" then some (.endpoint recordValue)
      else if key = text "skill-md" ∨ key = text "skill" then some (.skill recordValue)
      else if key = text "agent-capabilities" then some (.capabilities (commaItems recordValue))
      else if key = text "arp" then some .arp
      else none

/-- What a list of records says. -/
structure BridgeFields where
  endpoint : Option JSString
  skill : Option JSString
  capabilities : Option (List JSString)
  arp : Bool

namespace BridgeFields

def empty : BridgeFields := ⟨none, none, none, false⟩

/-- One more entry: manifests and skills replace the one before, capability items accumulate. -/
def add (fields : BridgeFields) : BridgeEntry → BridgeFields
  | .endpoint value => { fields with endpoint := some value }
  | .skill value => { fields with skill := some value }
  | .capabilities items =>
      { fields with capabilities := some (items.foldl insertNew (fields.capabilities.getD [])) }
  | .arp => { fields with arp := true }

/-- How a metadata object with this meaning reads. -/
def read (fields : BridgeFields) (key : JSString) : Option JsonValue :=
  if key = text "version" then some (.number (.finite 1))
  else if key = text "endpoint" then fields.endpoint.map .string
  else if key = text "skill" then fields.skill.map .string
  else if key = text "capabilities" then
    fields.capabilities.map fun items => .array (items.map .string)
  else if key = text "protocols" then
    if fields.arp then some (.array [.string (text "arp")]) else none
  else none

end BridgeFields

/-- The metadata object reads as the fields say. -/
def Represents (metadata : Properties JsonValue) (fields : BridgeFields) : Prop :=
  ∀ key, getProperty metadata key = fields.read key

theorem version_one_represents : Represents versionOne .empty := by
  intro key
  by_cases h : key = text "version"
  · subst h
    rfl
  · have hread : getProperty versionOne key = none := if_neg fun heq => h heq.symm
    rw [hread, BridgeFields.read, if_neg h]
    show none = if key = text "endpoint" then none else if key = text "skill" then none
      else if key = text "capabilities" then none else if key = text "protocols" then none else none
    split_ifs <;> rfl

/-! ## Lists of items -/

theorem includes_string_iff {items : List JSString} {item : JSString} :
    includesString (items.map .string) item ↔ item ∈ items := by
  unfold includesString
  rw [List.any_map, List.any_eq_true]
  constructor
  · rintro ⟨other, hother, heq⟩
    have heq : other = item := of_decide_eq_true heq
    exact heq ▸ hother
  · intro h
    exact ⟨item, h, decide_eq_true rfl⟩

theorem push_unique_strings (items : List JSString) (item : JSString) :
    pushUnique (items.map .string) item = (insertNew items item).map .string := by
  unfold pushUnique insertNew
  by_cases h : item ∈ items
  · rw [if_pos (includes_string_iff.mpr h), if_pos h]
  · rw [if_neg (fun hin => h (includes_string_iff.mp hin)), if_neg h]
    simp

theorem push_all_strings (new items : List JSString) :
    new.foldl pushUnique (items.map .string) = (new.foldl insertNew items).map .string := by
  induction new generalizing items with
  | nil => rfl
  | cons item rest ih => rw [List.foldl_cons, push_unique_strings, ih, List.foldl_cons]

theorem split_list_of_fields (items : Option (List JSString)) :
    splitCommaListValue (items.map fun items => .array (items.map .string)) =
      (items.getD []).map .string := by
  cases items <;> rfl

/-! ## One record -/

/-- Setting a property of an object is setting the field that it reads. -/
theorem represents_set {metadata : Properties JsonValue} {fields fields' : BridgeFields}
    {key : JSString} {value : JsonValue} (h : Represents metadata fields)
    (hkey : fields'.read key = some value)
    (hother : ∀ other, other ≠ key → fields'.read other = fields.read other) :
    Represents (setProperty metadata key value) fields' := by
  intro other
  rw [get_set]
  by_cases heq : other = key
  · rw [if_pos heq, heq, hkey]
  · rw [if_neg heq, h other, hother other heq]

/-- What an entry does to the metadata object. -/
def applyEntry (metadata : Properties JsonValue) : BridgeEntry → Properties JsonValue
  | .endpoint value => setProperty metadata (text "endpoint") (.string value)
  | .skill value => setProperty metadata (text "skill") (.string value)
  | .capabilities items =>
      setProperty metadata (text "capabilities")
        (.array (items.foldl pushUnique
          (splitCommaListValue (getProperty metadata (text "capabilities")))))
  | .arp =>
      setProperty metadata (text "protocols")
        (appendUniqueListValue (getProperty metadata (text "protocols")) (text "arp"))

/-- A record is applied by its entry. -/
theorem apply_eq_entry (value : JSString) (metadata : Properties JsonValue) :
    applyHeadlessProfileRecord value metadata =
      (bridgeEntry value).elim metadata (applyEntry metadata) := by
  unfold applyHeadlessProfileRecord bridgeEntry
  cases firstDelimiterIndex value with
  | none => rfl
  | some index =>
      dsimp only
      generalize delimitedKey value index = key
      generalize trim (value.drop (index + 1)) = recordValue
      by_cases hvalue : recordValue.isEmpty
      · rw [if_pos (Or.inr hvalue), if_pos hvalue]
        rfl
      · rw [if_neg hvalue]
        by_cases hmanifest : key = text "agent-manifest" ∨ key = text "manifest"
        · have hkey : key ∈ headlessProfileFields := by rcases hmanifest with rfl | rfl <;> decide
          rw [if_neg (by simp [hkey, hvalue]), if_pos hmanifest, if_pos hmanifest]
          rfl
        · rw [if_neg hmanifest, if_neg hmanifest]
          by_cases hskill : key = text "skill-md" ∨ key = text "skill"
          · have hkey : key ∈ headlessProfileFields := by rcases hskill with rfl | rfl <;> decide
            rw [if_neg (by simp [hkey, hvalue]), if_pos hskill, if_pos hskill]
            rfl
          · rw [if_neg hskill, if_neg hskill]
            by_cases hcapabilities : key = text "agent-capabilities"
            · have hkey : key ∈ headlessProfileFields := by rw [hcapabilities]; decide
              rw [if_neg (by simp [hkey, hvalue]), if_pos hcapabilities, if_pos hcapabilities]
              rfl
            · rw [if_neg hcapabilities, if_neg hcapabilities]
              by_cases harp : key = text "arp"
              · have hkey : key ∈ headlessProfileFields := by rw [harp]; decide
                rw [if_neg (by simp [hkey, hvalue]), if_pos harp, if_pos harp]
                rfl
              · rw [if_neg harp, if_neg harp, ite_self]
                rfl

/-- One entry keeps the relation. -/
theorem apply_entry_represents {metadata : Properties JsonValue} {fields : BridgeFields}
    (h : Represents metadata fields) (entry : BridgeEntry) :
    Represents (applyEntry metadata entry) (fields.add entry) := by
  cases entry with
  | endpoint value =>
      refine represents_set h rfl fun other hother => ?_
      simp only [BridgeFields.read, hother, if_false]
      rfl
  | skill value =>
      refine represents_set h rfl fun other hother => ?_
      simp only [BridgeFields.read, hother, if_false]
      rfl
  | capabilities items =>
      have hlist : getProperty metadata (text "capabilities") =
          fields.capabilities.map fun items => .array (items.map .string) := h _
      refine represents_set h ?_ fun other hother => ?_
      · rw [hlist, split_list_of_fields, push_all_strings]
        rfl
      · simp only [BridgeFields.read, hother, if_false]
        rfl
  | arp =>
      have hlist : getProperty metadata (text "protocols") =
          if fields.arp then some (.array [.string (text "arp")]) else none := h _
      refine represents_set h ?_ fun other hother => ?_
      · rw [hlist]
        cases fields.arp <;> rfl
      · simp only [BridgeFields.read, hother, if_false]
        rfl

/-! ## The loop -/

/-- A bridge record that is not too long and has a value. -/
def IsWellFormed (value : JSString) : Prop :=
  value.length ≤ maxTxtValueLength ∧ (getDelimitedValue value).all List.isEmpty = false

instance (value : JSString) : Decidable (IsWellFormed value) :=
  inferInstanceAs (Decidable (_ ∧ _))

/-- The message of a malformed record, if it is one. -/
def bridgeProblem (value : JSString) : Option JSString :=
  if value.length > maxTxtValueLength then some (text "HeadlessProfile TXT value is too long")
  else if (getDelimitedValue value).all List.isEmpty then
    some (text "HeadlessProfile TXT value is empty")
  else none

theorem bridge_problem_none_iff {value : JSString} :
    bridgeProblem value = none ↔ IsWellFormed value := by
  unfold bridgeProblem IsWellFormed
  split
  · rename_i hlong
    simp only [reduceCtorEq, false_iff]
    rintro ⟨hle, _⟩
    omega
  · rename_i hshort
    split
    · rename_i hempty
      simp [hempty]
    · rename_i hvalue
      simp only [true_iff]
      exact ⟨Nat.not_lt.mp hshort, by simpa using hvalue⟩

/-- One iteration on a bridge record. -/
theorem bridge_step_of_bridge {state : BridgeState} {value : JSString} (h : isBridge value) :
    bridgeStep state value =
      { metadata :=
          if IsWellFormed value then applyHeadlessProfileRecord value state.metadata
          else state.metadata
        records := state.records ++ [value]
        malformedMessage := state.malformedMessage.or (bridgeProblem value) } := by
  obtain ⟨key, hkey⟩ := Option.isSome_iff_exists.mp h
  unfold bridgeStep bridgeProblem
  simp only [hkey]
  by_cases hlong : value.length > maxTxtValueLength
  · have hnot : ¬ IsWellFormed value := fun hwell => absurd hwell.1 (Nat.not_le.mpr hlong)
    rw [if_pos hlong, if_pos hlong, if_neg hnot]
  · rw [if_neg hlong, if_neg hlong]
    by_cases hempty : (getDelimitedValue value).all List.isEmpty
    · have hnot : ¬ IsWellFormed value := fun hwell =>
        absurd (hempty.symm.trans hwell.2) (by decide)
      rw [if_pos hempty, if_pos hempty, if_neg hnot]
    · have hwell : IsWellFormed value := ⟨Nat.not_lt.mp hlong, by simpa using hempty⟩
      rw [if_neg hempty, if_neg hempty, if_pos hwell, Option.or_none]

/-- The fields after the well-formed records of a list. -/
def foldFields (fields : BridgeFields) (values : List JSString) : BridgeFields :=
  ((values.filter fun value => IsWellFormed value).filterMap bridgeEntry).foldl .add fields

theorem fold_fields_cons (fields : BridgeFields) (value : JSString) (rest : List JSString) :
    foldFields fields (value :: rest) =
      foldFields (if IsWellFormed value then (bridgeEntry value).elim fields fields.add else fields)
        rest := by
  unfold foldFields
  by_cases hwell : IsWellFormed value
  · rw [if_pos hwell, List.filter_cons_of_pos (by simpa using hwell), List.filterMap_cons]
    cases bridgeEntry value <;> rfl
  · rw [if_neg hwell, List.filter_cons_of_neg (by simpa using hwell)]

/-- One record keeps the relation. -/
theorem apply_represents {metadata : Properties JsonValue} {fields : BridgeFields}
    (h : Represents metadata fields) (value : JSString) :
    Represents (if IsWellFormed value then applyHeadlessProfileRecord value metadata else metadata)
      (if IsWellFormed value then (bridgeEntry value).elim fields fields.add else fields) := by
  split
  · rw [apply_eq_entry]
    cases bridgeEntry value with
    | none => exact h
    | some entry => exact apply_entry_represents h entry
  · exact h

/-- The loop over bridge records: the records are collected, the first problem is kept, and the
object represents what the well-formed records say. -/
theorem bridge_fold {values : List JSString} (hall : ∀ value ∈ values, isBridge value)
    (state : BridgeState) (fields : BridgeFields) (h : Represents state.metadata fields) :
    (values.foldl bridgeStep state).records = state.records ++ values ∧
      (values.foldl bridgeStep state).malformedMessage =
        state.malformedMessage.or (values.findSome? bridgeProblem) ∧
      Represents (values.foldl bridgeStep state).metadata (foldFields fields values) := by
  induction values generalizing state fields with
  | nil => exact ⟨by simp, by simp, h⟩
  | cons value rest ih =>
      have hrest : ∀ v ∈ rest, isBridge v := fun v hv => hall v (List.mem_cons_of_mem _ hv)
      rw [List.foldl_cons, bridge_step_of_bridge (hall value List.mem_cons_self), fold_fields_cons]
      obtain ⟨hrecords, hmessage, hmetadata⟩ := ih hrest
        ⟨if IsWellFormed value then applyHeadlessProfileRecord value state.metadata
            else state.metadata,
          state.records ++ [value], state.malformedMessage.or (bridgeProblem value)⟩ _
        (apply_represents h value)
      refine ⟨?_, ?_, hmetadata⟩
      · rw [hrecords, List.append_assoc, List.singleton_append]
      · rw [hmessage, Option.or_assoc, List.findSome?_cons]
        cases bridgeProblem value <;> rfl

/-! ## Validation -/

/-- A text that is not blank. -/
def IsVisible (s : JSString) : Prop := trim s ≠ []

/-- Every text of the entry is visible. -/
def BridgeEntry.IsVisible : BridgeEntry → Prop
  | .endpoint value => AgentResolver.IsVisible value
  | .skill value => AgentResolver.IsVisible value
  | .capabilities items => ∀ item ∈ items, AgentResolver.IsVisible item
  | .arp => True

/-- Every text of the fields is visible. -/
structure BridgeFields.IsVisible (fields : BridgeFields) : Prop where
  endpoint : ∀ value, fields.endpoint = some value → AgentResolver.IsVisible value
  skill : ∀ value, fields.skill = some value → AgentResolver.IsVisible value
  capabilities : ∀ item ∈ fields.capabilities.getD [], AgentResolver.IsVisible item

theorem visible_of_trimmed {s : JSString} (h : Trimmed s) (hne : s ≠ []) : IsVisible s := by
  unfold IsVisible
  rw [h]
  exact hne

def BridgeEntry.texts : BridgeEntry → List JSString
  | .endpoint value => [value]
  | .skill value => [value]
  | .capabilities items => items
  | .arp => []

theorem comma_items_trimmed (value : JSString) :
    ∀ item ∈ commaItems value, Trimmed item ∧ item ≠ [] := by
  intro item hitem
  obtain ⟨hmem, hne⟩ := List.mem_filter.mp hitem
  obtain ⟨piece, _, rfl⟩ := List.mem_map.mp hmem
  exact ⟨trimmed_trim piece, by simpa using hne⟩

/-- The texts of an entry are trimmed and not empty. -/
theorem bridge_entry_texts {value : JSString} {entry : BridgeEntry}
    (h : bridgeEntry value = some entry) : ∀ s ∈ entry.texts, Trimmed s ∧ s ≠ [] := by
  unfold bridgeEntry at h
  split at h
  · cases h
  · rename_i index _
    have htrimmed := trimmed_trim (value.drop (index + 1))
    dsimp only at h
    generalize trim (value.drop (index + 1)) = recordValue at h htrimmed
    by_cases hvalue : recordValue.isEmpty
    · rw [if_pos hvalue] at h
      cases h
    · have hsingle : ∀ s ∈ [recordValue], Trimmed s ∧ s ≠ [] := by
        intro s hs
        rw [List.mem_singleton.mp hs]
        exact ⟨htrimmed, by simpa using hvalue⟩
      rw [if_neg hvalue] at h
      split_ifs at h
      · cases h
        exact hsingle
      · cases h
        exact hsingle
      · cases h
        exact comma_items_trimmed recordValue
      · cases h
        exact fun s hs => nomatch hs

/-- No text of an entry is blank. -/
theorem bridge_entry_visible {value : JSString} {entry : BridgeEntry}
    (h : bridgeEntry value = some entry) : entry.IsVisible := by
  have hvisible : ∀ s ∈ entry.texts, AgentResolver.IsVisible s := fun s hs =>
    visible_of_trimmed (bridge_entry_texts h s hs).1 (bridge_entry_texts h s hs).2
  cases entry with
  | endpoint value => exact hvisible value List.mem_cons_self
  | skill value => exact hvisible value List.mem_cons_self
  | capabilities items => exact hvisible
  | arp => trivial

theorem BridgeFields.IsVisible.add {fields : BridgeFields} (h : fields.IsVisible)
    {entry : BridgeEntry} (hentry : entry.IsVisible) : (fields.add entry).IsVisible := by
  cases entry with
  | endpoint value =>
      refine ⟨fun other hother => ?_, h.skill, h.capabilities⟩
      cases hother
      exact hentry
  | skill value =>
      refine ⟨h.endpoint, fun other hother => ?_, h.capabilities⟩
      cases hother
      exact hentry
  | capabilities items =>
      refine ⟨h.endpoint, h.skill, fun item hitem => ?_⟩
      exact (mem_foldl_insert_new.mp hitem).elim (h.capabilities item) (hentry item)
  | arp => exact ⟨h.endpoint, h.skill, h.capabilities⟩

theorem fold_fields_visible {fields : BridgeFields} (h : fields.IsVisible)
    (values : List JSString) : (foldFields fields values).IsVisible := by
  induction values generalizing fields with
  | nil => exact h
  | cons value rest ih =>
      rw [fold_fields_cons]
      apply ih
      split
      · cases hentry : bridgeEntry value with
        | none => exact h
        | some entry => exact h.add (bridge_entry_visible hentry)
      · exact h

theorem empty_fields_visible : BridgeFields.empty.IsVisible where
  endpoint _ h := nomatch h
  skill _ h := nomatch h
  capabilities _ h := nomatch h

/-- The fields pass validation: no text is too long, there are not too many capabilities, and
something is said at all. -/
structure BridgeFields.Accepted (fields : BridgeFields) : Prop where
  endpoint : ∀ value, fields.endpoint = some value → value.length ≤ maxStringFieldLength
  skill : ∀ value, fields.skill = some value → value.length ≤ maxStringFieldLength
  count : (fields.capabilities.getD []).length ≤ maxCapabilityCount
  items : ∀ item ∈ fields.capabilities.getD [], item.length ≤ maxStringFieldLength
  signal : fields.endpoint.isSome ∨ fields.skill.isSome ∨ fields.capabilities.getD [] ≠ [] ∨
    fields.arp

theorem source_endpoint (fields : BridgeFields) :
    present (stringSource fields.read (text "endpoint")) = fields.endpoint.map .string := by
  obtain ⟨endpoint, skill, capabilities, arp⟩ := fields
  cases endpoint <;> rfl

theorem source_skill (fields : BridgeFields) :
    present (stringSource fields.read (text "skill")) = fields.skill.map .string := by
  obtain ⟨endpoint, skill, capabilities, arp⟩ := fields
  cases skill <;> rfl

/-- The other string fields are absent. -/
theorem source_other {fields : BridgeFields} {field : JSString}
    (hfield : field ∈ optionalStringFields) (hendpoint : field ≠ text "endpoint")
    (hskill : field ≠ text "skill") : present (stringSource fields.read field) = none := by
  have hversion : field ≠ text "version" := by rintro rfl; exact absurd hfield (by decide)
  have hcapabilities : field ≠ text "capabilities" := by rintro rfl; exact absurd hfield (by decide)
  have hprotocols : field ≠ text "protocols" := by rintro rfl; exact absurd hfield (by decide)
  simp only [stringSource, hskill, if_false, BridgeFields.read, hversion, hendpoint,
    hcapabilities, hprotocols, present_none]

/-- The validator's condition on the string fields. -/
theorem source_valid {fields : BridgeFields} (hvisible : fields.IsVisible) :
    (collectStringFields (stringSource fields.read) id optionalStringFields).1 = [] ↔
      (∀ value, fields.endpoint = some value → value.length ≤ maxStringFieldLength) ∧
        ∀ value, fields.skill = some value → value.length ≤ maxStringFieldLength := by
  rw [string_fields_valid]
  constructor
  · intro h
    refine ⟨fun value hvalue => ?_, fun value hvalue => ?_⟩
    · obtain ⟨s, hs, _, hshort⟩ := h (text "endpoint") (by decide) (.string value)
        (by rw [source_endpoint, hvalue]; rfl)
      cases hs
      exact hshort
    · obtain ⟨s, hs, _, hshort⟩ := h (text "skill") (by decide) (.string value)
        (by rw [source_skill, hvalue]; rfl)
      cases hs
      exact hshort
  · rintro ⟨hendpoint, hskill⟩ field hfield value hvalue
    by_cases hfirst : field = text "endpoint"
    · rw [hfirst, source_endpoint] at hvalue
      obtain ⟨s, hs, rfl⟩ := Option.map_eq_some_iff.mp hvalue
      exact ⟨s, rfl, hvisible.endpoint s hs, hendpoint s hs⟩
    · by_cases hsecond : field = text "skill"
      · rw [hsecond, source_skill] at hvalue
        obtain ⟨s, hs, rfl⟩ := Option.map_eq_some_iff.mp hvalue
        exact ⟨s, rfl, hvisible.skill s hs, hskill s hs⟩
      · rw [source_other hfield hfirst hsecond] at hvalue
        cases hvalue

theorem source_present {fields : BridgeFields} :
    (∃ field ∈ optionalStringFields, (present (stringSource fields.read field)).isSome) ↔
      fields.endpoint.isSome ∨ fields.skill.isSome := by
  constructor
  · rintro ⟨field, hfield, hpresent⟩
    by_cases hfirst : field = text "endpoint"
    · rw [hfirst, source_endpoint, Option.isSome_map] at hpresent
      exact Or.inl hpresent
    · by_cases hsecond : field = text "skill"
      · rw [hsecond, source_skill, Option.isSome_map] at hpresent
        exact Or.inr hpresent
      · rw [source_other hfield hfirst hsecond] at hpresent
        cases hpresent
  · rintro (h | h)
    · exact ⟨text "endpoint", by decide, by rw [source_endpoint, Option.isSome_map]; exact h⟩
    · exact ⟨text "skill", by decide, by rw [source_skill, Option.isSome_map]; exact h⟩

/-- The capability list of the fields, as the validator reads it. -/
theorem bridge_capabilities_valid {fields : BridgeFields} (hvisible : fields.IsVisible) :
    (normalizeCapabilities (fields.read (text "capabilities"))).1 = [] ↔
      (fields.capabilities.getD []).length ≤ maxCapabilityCount ∧
        ∀ item ∈ fields.capabilities.getD [], item.length ≤ maxStringFieldLength := by
  have hread : fields.read (text "capabilities") =
      fields.capabilities.map fun items => .array (items.map .string) := rfl
  rw [hread]
  cases hcapabilities : fields.capabilities with
  | none => simp [normalizeCapabilities, normalizeEntries]
  | some items =>
      have hall : ∀ item ∈ items, trim item ≠ [] := fun item hitem =>
        hvisible.capabilities item (by rw [hcapabilities]; exact hitem)
      show (normalizeEntries capabilityEntries (some (.array (items.map .string)))).1 = [] ↔ _
      rw [string_entries_valid]
      refine and_congr_right fun _ => forall_congr' fun item => imp_congr_right fun hitem => ?_
      exact and_iff_right (hall item hitem)

/-- The entries of a valid capability list are those of the items. -/
theorem bridge_capabilities_eq {fields : BridgeFields}
    (hvalid : (normalizeCapabilities (fields.read (text "capabilities"))).1 = []) :
    (normalizeCapabilities (fields.read (text "capabilities"))).2 =
      (fields.capabilities.getD []).map stringEntry := by
  have hread : fields.read (text "capabilities") =
      fields.capabilities.map fun items => .array (items.map .string) := rfl
  rw [hread] at hvalid ⊢
  cases hcapabilities : fields.capabilities with
  | none => rfl
  | some items =>
      rw [hcapabilities] at hvalid
      exact string_entries_eq hvalid

theorem bridge_capabilities_empty {fields : BridgeFields}
    (hvalid : (normalizeCapabilities (fields.read (text "capabilities"))).1 = []) :
    (normalizeCapabilities (fields.read (text "capabilities"))).2 = [] ↔
      fields.capabilities.getD [] = [] := by
  rw [bridge_capabilities_eq hvalid, List.map_eq_nil_iff]

/-- The protocol list of the fields, as the validator reads it. -/
theorem bridge_protocols (fields : BridgeFields) :
    normalizeProtocols ((present (fields.read (text "protocols"))).or
      (fields.read (text "protocol"))) =
        ([], if fields.arp then [stringEntry (text "arp")] else []) := by
  obtain ⟨endpoint, skill, capabilities, arp⟩ := fields
  cases arp <;> rfl

/-- What the fields say passes validation exactly when it is accepted. -/
theorem bridge_valid {fields : BridgeFields} (hvisible : fields.IsVisible) :
    (validateProperties fields.read).ok ↔ fields.Accepted := by
  have hprotocols := bridge_protocols fields
  have harp : (if fields.arp then [stringEntry (text "arp")] else []) ≠ [] ↔ fields.arp := by
    cases fields.arp <;> simp
  rw [validate_ok_iff]
  constructor
  · rintro ⟨_, _, hstrings, hcapabilities, _, hsignal, _⟩
    obtain ⟨hendpoint, hskill⟩ := (source_valid hvisible).mp hstrings
    obtain ⟨hcount, hitems⟩ := (bridge_capabilities_valid hvisible).mp hcapabilities
    refine ⟨hendpoint, hskill, hcount, hitems, ?_⟩
    rw [source_present, hprotocols, harp, ne_eq, bridge_capabilities_empty hcapabilities,
      or_assoc] at hsignal
    have hready : ¬ (present (fields.read (text "ready"))).isSome := nofun
    exact hsignal.imp_right (Or.imp_right fun h => h.resolve_left hready)
  · rintro ⟨hendpoint, hskill, hcount, hitems, hsignal⟩
    have hcapabilities := (bridge_capabilities_valid hvisible).mpr ⟨hcount, hitems⟩
    refine ⟨rfl, ⟨none, rfl⟩, (source_valid hvisible).mpr ⟨hendpoint, hskill⟩, hcapabilities,
      by rw [hprotocols], ?_, fun value hvalue => by cases hvalue⟩
    rw [source_present, hprotocols, harp, ne_eq, bridge_capabilities_empty hcapabilities,
      or_assoc]
    exact hsignal.imp_right (Or.imp_right Or.inr)

/-! ## The fallback -/

/-- The bridge records of a list of values. -/
def bridgeRecords (values : List JSString) : List JSString := values.filter isBridge

/-- The records are well formed and what they say is accepted. -/
structure BridgeAccepted (records : List JSString) : Prop where
  wellFormed : ∀ record ∈ records, IsWellFormed record
  accepted : (foldFields .empty records).Accepted

theorem bridge_filter_step (state : BridgeState) (value : JSString) :
    bridgeStep state value = if isBridge value then bridgeStep state value else state := by
  by_cases h : isBridge value
  · rw [if_pos h]
  · have hnone : getHeadlessProfileKey value = none := by simpa [isBridge] using h
    rw [if_neg h]
    simp only [bridgeStep, hnone]

/-- The bridge fallback reads the bridge records alone. -/
theorem bridge_filter (values : List JSString) :
    parseHeadlessProfileRecords values = parseHeadlessProfileRecords (bridgeRecords values) := by
  have hfold : values.foldl bridgeStep ⟨versionOne, [], none⟩ =
      (bridgeRecords values).foldl bridgeStep ⟨versionOne, [], none⟩ := by
    rw [bridgeRecords, List.foldl_filter]
    congr 1
    funext state value
    exact bridge_filter_step state value
  unfold parseHeadlessProfileRecords
  rw [hfold]

theorem bridge_records_all {values : List JSString} :
    ∀ value ∈ bridgeRecords values, isBridge value :=
  fun _ h => (List.mem_filter.mp h).2

/-- Without a bridge record there is no fallback. -/
theorem bridge_fallback_none {values : List JSString} (h : bridgeRecords values = []) :
    parseHeadlessProfileRecords values = none := by
  rw [bridge_filter, h]
  rfl

/-- With a bridge record the fallback is decided by the first problem among the bridge records, and
without a problem by the validation of what they say. -/
theorem bridge_fallback_eq {values : List JSString} (hne : bridgeRecords values ≠ []) :
    parseHeadlessProfileRecords values =
      some (((bridgeRecords values).findSome? bridgeProblem).elim
        (validationResult (validateProperties (foldFields .empty (bridgeRecords values)).read)
          (fun identity => .found identity (join (bridgeRecords values) [unit '\n'])
            (bridgeRecords values))
          (fun message => .malformed message (bridgeRecords values)))
        (fun message => .malformed message (bridgeRecords values))) := by
  rw [bridge_filter]
  generalize hrecords : bridgeRecords values = records at *
  have hall : ∀ record ∈ records, isBridge record := hrecords ▸ bridge_records_all
  obtain ⟨hcollected, hmessage, hmetadata⟩ :=
    bridge_fold hall ⟨versionOne, [], none⟩ .empty version_one_represents
  have hobject : validateAgentIdentityMetadata
      (.object (records.foldl bridgeStep ⟨versionOne, [], none⟩).metadata) =
        validateProperties (foldFields .empty records).read :=
    congrArg validateProperties (funext hmetadata)
  simp only [parseHeadlessProfileRecords, hcollected, hmessage, hobject, List.nil_append,
    Option.none_or, List.isEmpty_iff, hne, if_false]
  cases records.findSome? bridgeProblem <;> rfl

theorem no_problem_iff {records : List JSString} :
    records.findSome? bridgeProblem = none ↔ ∀ record ∈ records, IsWellFormed record := by
  rw [List.findSome?_eq_none_iff]
  exact forall_congr' fun record => imp_congr_right fun _ => bridge_problem_none_iff

/-- With a bridge record the fallback finds an identity or reports a malformed one, in either case
with all the bridge records. -/
theorem bridge_fallback_some {values : List JSString} (hne : bridgeRecords values ≠ []) :
    (BridgeAccepted (bridgeRecords values) →
        ∃ identity, parseHeadlessProfileRecords values =
          some (.found identity (join (bridgeRecords values) [unit '\n']) (bridgeRecords values))) ∧
      (¬ BridgeAccepted (bridgeRecords values) →
        ∃ message, parseHeadlessProfileRecords values =
          some (.malformed message (bridgeRecords values))) := by
  have hvalid := bridge_valid (fold_fields_visible empty_fields_visible (bridgeRecords values))
  rw [bridge_fallback_eq hne]
  refine ⟨fun h => ?_, fun h => ?_⟩
  · rw [no_problem_iff.mpr h.wellFormed]
    have hok := hvalid.mpr h.accepted
    exact ⟨_, by simp only [Option.elim_none, validationResult, hok]; rfl⟩
  · cases hproblem : (bridgeRecords values).findSome? bridgeProblem with
    | some problem => exact ⟨problem, rfl⟩
    | none =>
        have hnot :
            (validateProperties (foldFields .empty (bridgeRecords values)).read).ok = false := by
          simpa using fun hok => h ⟨no_problem_iff.mp hproblem, hvalid.mp hok⟩
        exact ⟨_, by simp only [Option.elim_none, validationResult, hnot]; rfl⟩

end AgentResolver
