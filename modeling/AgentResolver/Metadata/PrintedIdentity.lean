import AgentResolver.JavaScript.JsonRoundTrip
import AgentResolver.Metadata.Republish

/-!
# Identities that are printed

An identity that is found in values of the language can be printed: its object has no key twice
(`parsed_language`). Read back it is the object of the identity whose `extra` member is what the
text shows of it (`identity_object_shown`), so an identity can be published as it was printed
(`shown_identity_printed`).
-/

namespace AgentResolver

open JavaScript

/-- Texts without a key twice, and an `extra` member that is an object of the language. -/
structure IsLanguageIdentity (identity : Identity) : Prop where
  strings : (identity.strings.map Prod.fst).Sublist optionalStringFields
  capabilities : ∀ entry ∈ identity.capabilities, (entry.map Prod.fst).Nodup
  protocols : ∀ entry ∈ identity.protocols, (entry.map Prod.fst).Nodup
  extra : ∀ members, identity.extra = some members → IsLanguageObject members

/-! ## Validation -/

theorem collected_keys (read : JSString → Option JsonValue) (label : JSString → JSString)
    (fields : List JSString) :
    ((collectStringFields read label fields).2.map Prod.fst).Sublist fields := by
  induction fields with
  | nil => exact List.Sublist.refl _
  | cons field rest ih =>
      rw [collectStringFields]
      dsimp only
      split
      · exact ih.cons field
      · split
        · exact ih.cons_cons field
        · exact ih.cons field

theorem simple_object_distinct {item : Properties JsonValue} {fields : List JSString}
    (hfields : fields.Nodup) {kind : JSString} {entry : SimpleObject}
    (h : (normalizeSimpleObject item fields kind).2 = some entry) :
    (entry.map Prod.fst).Nodup := by
  have hcollected := (collected_keys (getProperty item) (fun field => kind ++ unit '.' :: field)
    fields).nodup hfields
  unfold normalizeSimpleObject at h
  dsimp only at h
  split at h
  · cases h
  · split_ifs at h
    cases h
    exact set_property_distinct (set_property_distinct hcollected)

theorem entry_distinct {spec : EntryKind} (hfields : spec.fields.Nodup) {value : JsonValue}
    {entry : SimpleObject} (h : (normalizeEntry spec value).2 = some entry) :
    (entry.map Prod.fst).Nodup := by
  cases value with
  | object members => exact simple_object_distinct hfields h
  | string s =>
      rw [normalizeEntry] at h
      split at h
      · cases h
        exact (by decide : [text "id", text "name"].Nodup)
      · cases h
  | null | boolean b | number n | array items => cases h

theorem entries_distinct {spec : EntryKind} (hfields : spec.fields.Nodup)
    (value : Option JsonValue) :
    ∀ entry ∈ (normalizeEntries spec value).2, (entry.map Prod.fst).Nodup := by
  intro entry hentry
  unfold normalizeEntries at hentry
  split at hentry
  · exact absurd hentry List.not_mem_nil
  · obtain ⟨pushed, hpushed, heq⟩ := List.mem_filterMap.mp hentry
    obtain ⟨item, -, rfl⟩ := List.mem_map.mp hpushed
    exact entry_distinct hfields heq
  · exact absurd hentry List.not_mem_nil

/-- The identity of an object of the language. -/
theorem validated_language {value : JsonValue} (h : IsLanguageValue value) {identity : Identity}
    (hidentity : (validateAgentIdentityMetadata value).identity = some identity) :
    IsLanguageIdentity identity := by
  cases value with
  | object members =>
      rw [validateAgentIdentityMetadata, validateProperties] at hidentity
      rw [← Option.some.inj hidentity]
      refine ⟨collected_keys _ _ _, entries_distinct (by decide) _, entries_distinct (by decide) _,
        fun extra hextra => ?_⟩
      dsimp only at hextra
      split at hextra
      · cases hextra
      · rename_i others hothers
        cases hextra
        cases hread : getProperty members (text "extra") with
        | none =>
            rw [hread] at hothers
            cases hothers
        | some value =>
            rw [hread] at hothers
            have hvalue := h.members.get hread
            cases value with
            | object inner =>
                cases hothers
                exact hvalue.members
            | null | boolean b | number n | string s | array items => cases hothers
      · cases hextra
  | null | boolean b | number n | string s | array items => cases hidentity

/-! ## Values that are validated -/

theorem apply_segment_language {metadata : Properties JsonValue} (h : IsLanguageObject metadata)
    (segment : JSString) : IsLanguageObject (applySegment metadata segment) := by
  unfold applySegment
  dsimp only
  split
  · exact h
  · split_ifs
    · exact h
    · exact h.set (.string _) _
    · exact h.set (.string _) _
    · exact h.set (.string _) _
    · exact h
    · exact h.set (.string _) _

theorem key_value_language {base : Properties JsonValue} (h : IsLanguageObject base)
    (payload : JSString) : IsLanguageObject (parseKeyValuePayload payload base) :=
  List.foldlRecOn (split payload (unit ';')) applySegment h
    fun _ hmetadata segment _ => apply_segment_language hmetadata segment

theorem push_unique_language {current : List JsonValue}
    (h : ∀ item ∈ current, IsLanguageValue item) (item : JSString) :
    ∀ other ∈ pushUnique current item, IsLanguageValue other := by
  unfold pushUnique
  split
  · exact h
  · exact List.forall_mem_append.mpr ⟨h, List.forall_mem_singleton.mpr (.string item)⟩

theorem push_all_language {current : List JsonValue}
    (h : ∀ item ∈ current, IsLanguageValue item) (new : List JSString) :
    ∀ other ∈ new.foldl pushUnique current, IsLanguageValue other := by
  induction new generalizing current with
  | nil => exact h
  | cons item rest ih => exact ih (push_unique_language h item)

theorem split_list_language {value : Option JsonValue}
    (h : ∀ other, value = some other → IsLanguageValue other) :
    ∀ item ∈ splitCommaListValue value, IsLanguageValue item := by
  unfold splitCommaListValue
  split
  · rename_i items
    obtain ⟨⟩ | ⟨⟩ | ⟨⟩ | ⟨⟩ | ⟨⟩ | hitems := h _ rfl
    exact hitems
  · intro item hitem
    obtain ⟨s, -, rfl⟩ := List.mem_map.mp hitem
    exact .string s
  · exact fun item hitem => absurd hitem List.not_mem_nil

theorem apply_record_language {metadata : Properties JsonValue} (h : IsLanguageObject metadata)
    (value : JSString) : IsLanguageObject (applyHeadlessProfileRecord value metadata) := by
  have hlist (key : JSString) :=
    @split_list_language (getProperty metadata key) fun _ hother => h.get hother
  unfold applyHeadlessProfileRecord
  dsimp only
  split
  · exact h
  · split_ifs
    · exact h
    · exact h.set (.string _) _
    · exact h.set (.string _) _
    · exact h.set (.array (push_all_language (hlist _) _)) _
    · exact h.set (.array (push_unique_language (hlist _) _)) _
    · exact h

theorem bridge_step_language {state : BridgeState} (h : IsLanguageObject state.metadata)
    (value : JSString) : IsLanguageObject (bridgeStep state value).metadata := by
  unfold bridgeStep
  split
  · exact h
  · dsimp only
    split_ifs
    · exact h
    · exact h
    · exact apply_record_language h value

section

variable {json : Json} (hjson : ∀ s value, json.parse s = .ok value → IsLanguageValue value)

include hjson

theorem payload_language {payload : JSString} {value : JsonValue}
    (h : parseAgentIdentityPayload json payload = .ok value) : IsLanguageValue value := by
  unfold parseAgentIdentityPayload at h
  dsimp only at h
  split_ifs at h
  · cases hparse : json.parse (trim payload) with
    | error error =>
        rw [hparse] at h
        cases h
    | ok parsed =>
        rw [hparse] at h
        cases parsed with
        | object members =>
            cases h
            exact hjson _ _ hparse
        | null | boolean b | number n | string s | array items => cases h
  · cases h
    exact (key_value_language version_one_language _).value

variable {identity : Identity}

/-- The identity of a versioned value. -/
theorem found_identity_language {value : JSString}
    (h : foundIdentity json value = some identity) : IsLanguageIdentity identity := by
  have hparsed : parseMetadataValue json value = .found identity := by
    unfold foundIdentity at h
    split at h
    · rename_i hparsed
      cases h
      exact hparsed
    · cases h
  have hlanguage {parsed : JsonValue} (hvalue : IsLanguageValue parsed)
      (hresult : validationResult (validateAgentIdentityMetadata parsed) ParsedValue.found
        .malformed = .found identity) : IsLanguageIdentity identity := by
    rcases validation_result_cases (validateAgentIdentityMetadata parsed) ParsedValue.found
      .malformed with ⟨other, -, hother, heq⟩ | ⟨message, heq⟩
    · rw [heq] at hresult
      cases hresult
      exact validated_language hvalue hother
    · rw [heq] at hresult
      cases hresult
  -- The two notations reach the validator by different objects.
  unfold parseMetadataValue at hparsed
  split at hparsed
  · split_ifs at hparsed
    exact hlanguage (key_value_language version_one_language value).value hparsed
  · split_ifs at hparsed
    · split at hparsed
      · cases hparsed
      · cases hparsed
    · split at hparsed
      · cases hparsed
      · rename_i parsed hpayload
        exact hlanguage (payload_language hjson hpayload) hparsed

omit hjson in
/-- The identity of the bridge fallback. -/
theorem bridge_found_language {values records : List JSString} {record : JSString}
    (h : parseHeadlessProfileRecords values = some (.found identity record records)) :
    IsLanguageIdentity identity := by
  have hmetadata : IsLanguageObject (values.foldl bridgeStep ⟨versionOne, [], none⟩).metadata :=
    @List.foldlRecOn _ _ (fun state => IsLanguageObject state.metadata) values bridgeStep _
      version_one_language fun _ hstate value _ => bridge_step_language hstate value
  unfold parseHeadlessProfileRecords at h
  dsimp only at h
  split_ifs at h
  split at h
  · cases h
  · have hresult := Option.some.inj h
    unfold validationResult at hresult
    split at hresult
    · rename_i other _ hother
      cases hresult
      exact validated_language hmetadata.value hother
    · cases hresult

/-- Every identity that is parsed from TXT records is one of the language. -/
theorem parsed_language {records : List TxtRecord}
    (h : (parseTxtRecords json records).identity = some identity) :
    IsLanguageIdentity identity := by
  unfold parseTxtRecords at h
  rcases first_found json (records.map joinTxtRecord) with
    hnone | ⟨before, value, after, other, hvalues, hbefore, hfound⟩
  · rw [parse_loop_none_found hnone] at h
    obtain ⟨record, bridge, hbridge⟩ := finish_identity rfl h
    exact bridge_found_language hbridge
  · simp only [hvalues] at h
    rw [parse_loop_found hbefore hfound] at h
    cases h
    exact found_identity_language hjson hfound

end

/-! ## The object of an identity -/

variable {identity : Identity}

theorem optional_language {value : Option JsonValue}
    (h : ∀ other, value = some other → IsLanguageValue other) (key : JSString) :
    ∀ member ∈ optionalProperty key value, IsLanguageValue member.2 := by
  cases value with
  | none => exact fun member hmember => absurd hmember List.not_mem_nil
  | some value => exact List.forall_mem_singleton.mpr (h value rfl)

theorem optional_keys (key : JSString) (value : Option JsonValue) :
    ((optionalProperty key value).map Prod.fst).Sublist [key] := by
  cases value with
  | none => exact List.nil_sublist _
  | some value => exact List.Sublist.refl _

theorem entry_object_language {entry : SimpleObject} (h : (entry.map Prod.fst).Nodup) :
    IsLanguageValue (entryObject entry) := by
  refine .object ?_ (texts_language entry)
  rw [List.map_map]
  exact h

theorem list_value_language {entries : List SimpleObject}
    (h : ∀ entry ∈ entries, (entry.map Prod.fst).Nodup) {value : JsonValue}
    (hvalue : listValue entries = some value) : IsLanguageValue value := by
  unfold listValue at hvalue
  split at hvalue
  · cases hvalue
  · cases hvalue
    refine .array fun item hitem => ?_
    obtain ⟨entry, hentry, rfl⟩ := List.mem_map.mp hitem
    exact entry_object_language (h entry hentry)

/-- The keys of an identity's object, in the order of the assignments. -/
def identityKeys : List JSString :=
  [text "version"] ++ [text "ready"] ++ optionalStringFields ++ [text "capabilities"] ++
    [text "protocols"] ++ [text "extra"]

theorem identity_keys (h : IsLanguageIdentity identity) :
    ((identityObject identity).map Prod.fst).Sublist identityKeys := by
  rw [identityObject, List.map_append, List.map_append, List.map_append, List.map_append,
    List.map_append, List.map_map]
  exact (((((List.Sublist.refl _).append (optional_keys _ _)).append h.strings).append
    (optional_keys _ _)).append (optional_keys _ _)).append (optional_keys _ _)

/-- The object of an identity is one of the language. -/
theorem identity_object_language (h : IsLanguageIdentity identity) :
    IsLanguageObject (identityObject identity) := by
  refine ⟨(identity_keys h).nodup (by decide), ?_⟩
  rw [identityObject]
  refine List.forall_mem_append.mpr ⟨List.forall_mem_append.mpr ⟨List.forall_mem_append.mpr
    ⟨List.forall_mem_append.mpr ⟨List.forall_mem_append.mpr ⟨version_one_language.values,
      optional_language ?_ _⟩, texts_language _⟩, optional_language ?_ _⟩,
        optional_language ?_ _⟩, optional_language ?_ _⟩
  · intro value hvalue
    obtain ⟨ready, -, rfl⟩ := Option.map_eq_some_iff.mp hvalue
    exact .boolean ready
  · exact fun value hvalue => list_value_language h.capabilities hvalue
  · exact fun value hvalue => list_value_language h.protocols hvalue
  · intro value hvalue
    obtain ⟨members, hmembers, rfl⟩ := Option.map_eq_some_iff.mp hvalue
    exact (h.extra members hmembers).value

/-! ## Reading it back -/

/-- The identity with what a text shows of its `extra` member. -/
def Identity.shown (identity : Identity) : Identity :=
  { identity with extra := identity.extra.map shownObject }

theorem IsNormal.shown (h : IsNormal identity) : IsNormal identity.shown :=
  ⟨h.strings, h.capabilityCount, h.capabilities, h.protocolCount, h.protocols, h.signal⟩

theorem IsLanguageIdentity.shown (h : IsLanguageIdentity identity) :
    IsLanguageIdentity identity.shown := by
  refine ⟨h.strings, h.capabilities, h.protocols, fun members hmembers => ?_⟩
  obtain ⟨extra, hextra, rfl⟩ := Option.map_eq_some_iff.mp hmembers
  exact (h.extra extra hextra).shown

theorem optional_shown (key : JSString) (value : Option JsonValue) :
    (optionalProperty key value).map (fun member => (member.1, member.2.shown)) =
      optionalProperty key (value.map JsonValue.shown) := by
  cases value with
  | none => rfl
  | some value => rfl

/-- The keys of a normal entry are listed. -/
theorem normal_entry_keys {fields : List JSString} {entry : SimpleObject}
    (h : IsNormalEntry fields entry) (hdistinct : (entry.map Prod.fst).Nodup) :
    ∀ member ∈ entry, member.1 ∈ fields :=
  fun member hmember => (h.texts member.1 member.2 (get_of_mem hdistinct hmember)).1

theorem list_value_shown {fields : List JSString} (hfields : ∀ key ∈ fields, arrayIndex key = none)
    {entries : List SimpleObject} (h : ∀ entry ∈ entries, IsNormalEntry fields entry)
    (hdistinct : ∀ entry ∈ entries, (entry.map Prod.fst).Nodup) :
    (listValue entries).map JsonValue.shown = listValue entries := by
  have hentry : ∀ entry ∈ entries, (entryObject entry).shown = entryObject entry := by
    intro entry hentry
    have hkeys := normal_entry_keys (h entry hentry) (hdistinct entry hentry)
    rw [entryObject, shown_object_eq, shownObject, texts_shown, enumerate_named]
    intro member hmember
    obtain ⟨text, htext, rfl⟩ := List.mem_map.mp hmember
    exact hfields text.1 (hkeys text htext)
  unfold listValue
  split
  · rfl
  · rw [Option.map_some, JsonValue.shown, shown_items_eq, List.map_map]
    exact congrArg (fun items => some (JsonValue.array items)) (List.map_congr_left hentry)

/-- The object of an identity is read back as that of the identity that its text shows. -/
theorem identity_object_shown (h : IsNormal identity) (hlanguage : IsLanguageIdentity identity) :
    (JsonValue.object (identityObject identity)).shown =
      .object (identityObject identity.shown) := by
  have hkeys : ∀ key ∈ identityKeys, arrayIndex key = none := by decide
  have hnamed : ∀ member ∈ (identityObject identity).map fun member =>
      (member.1, member.2.shown), arrayIndex member.1 = none := by
    intro member hmember
    obtain ⟨shown, hshown, rfl⟩ := List.mem_map.mp hmember
    exact hkeys shown.1 ((identity_keys hlanguage).subset (List.mem_map_of_mem hshown))
  have hextra : (identity.extra.map JsonValue.object).map JsonValue.shown =
      identity.shown.extra.map .object := by
    rw [Identity.shown, Option.map_map, Option.map_map]
    exact congrArg (Option.map · _) (funext shown_object_eq)
  rw [shown_object_eq, shownObject, enumerate_named hnamed, identityObject, identityObject,
    List.map_append, List.map_append, List.map_append, List.map_append, List.map_append,
    optional_shown, optional_shown, optional_shown, optional_shown, texts_shown, hextra,
    list_value_shown (by decide) h.capabilities hlanguage.capabilities,
    list_value_shown (by decide) h.protocols hlanguage.protocols, Option.map_map]
  rfl

/-- An identity as a text shows it is printed and read back as the same object. -/
theorem shown_identity_printed (syntaxError : JSString → JSError) (h : IsNormal identity)
    (hlanguage : IsLanguageIdentity identity) :
    PrintsObject (languageJson syntaxError) (identityObject identity.shown) := by
  refine ⟨stringify_object [] _, ?_⟩
  have hread := @language_json_shown syntaxError _ (identity_object_language hlanguage).value
  rw [identity_object_shown h hlanguage] at hread
  exact hread

end AgentResolver
