import AgentResolver.Metadata.Bridge

/-!
# Diagnostics and the order of DNS answers

How the outcome of `parseTxtRecords` depends on the order of the records. Everything the parser
collects is a permutation of what it collects from a permuted list, with one exception: of several
manifests, and of several skills, only the last one is checked. `diagnostics_stable_iff` says that
an answer is stable under reordering exactly when that exception cannot show.
-/

namespace AgentResolver

open JavaScript Sequence

/-! ## What bridge records say, in any order -/

def manifestOf (value : JSString) : Option JSString :=
  match bridgeEntry value with
  | some (.endpoint manifest) => some manifest
  | _ => none

def skillOf (value : JSString) : Option JSString :=
  match bridgeEntry value with
  | some (.skill skill) => some skill
  | _ => none

def capabilitiesOf (value : JSString) : List JSString :=
  match bridgeEntry value with
  | some (.capabilities items) => items
  | _ => []

def saysArp (value : JSString) : Bool := bridgeEntry value = some .arp

/-- The fields of well-formed records: the last manifest, the last skill, the distinct capability
items and the `arp` mark. -/
theorem fold_fields_eq {records : List JSString} (hwell : ∀ record ∈ records, IsWellFormed record)
    (fields : BridgeFields) :
    (foldFields fields records).endpoint =
        (records.filterMap manifestOf).getLast?.or fields.endpoint ∧
      (foldFields fields records).skill = (records.filterMap skillOf).getLast?.or fields.skill ∧
      (foldFields fields records).capabilities.getD [] =
        (records.flatMap capabilitiesOf).foldl insertNew (fields.capabilities.getD []) ∧
      (foldFields fields records).arp = (fields.arp || records.any saysArp) := by
  induction records generalizing fields with
  | nil => exact ⟨rfl, rfl, rfl, by simp [foldFields]⟩
  | cons record rest ih =>
      rw [fold_fields_cons, if_pos (hwell record List.mem_cons_self)]
      obtain ⟨hendpoint, hskill, hcapabilities, harp⟩ :=
        ih (fun r hr => hwell r (List.mem_cons_of_mem _ hr))
          ((bridgeEntry record).elim fields fields.add)
      rw [hendpoint, hskill, hcapabilities, harp, List.filterMap_cons, List.filterMap_cons,
        List.flatMap_cons, List.foldl_append, List.any_cons, manifestOf, skillOf, capabilitiesOf,
        saysArp]
      cases hentry : bridgeEntry record with
      | none => simp
      | some entry =>
          cases entry with
          | endpoint manifest => simp [BridgeFields.add, List.getLast?_cons]
          | skill skill => simp [BridgeFields.add, List.getLast?_cons]
          | capabilities items => simp [BridgeFields.add]
          | arp => simp [BridgeFields.add]

/-- The same from nothing. -/
theorem empty_fold_fields_eq {records : List JSString}
    (hwell : ∀ record ∈ records, IsWellFormed record) :
    (foldFields .empty records).endpoint = (records.filterMap manifestOf).getLast? ∧
      (foldFields .empty records).skill = (records.filterMap skillOf).getLast? ∧
      (foldFields .empty records).capabilities.getD [] =
        firstSeen (records.flatMap capabilitiesOf) ∧
      (foldFields .empty records).arp = records.any saysArp := by
  obtain ⟨hendpoint, hskill, hcapabilities, harp⟩ := fold_fields_eq hwell .empty
  exact ⟨hendpoint.trans (Option.or_none), hskill.trans (Option.or_none), hcapabilities,
    harp.trans (Bool.false_or _)⟩

/-- Every text of the list fits into a string field. -/
def AllShort (texts : List JSString) : Prop := ∀ s ∈ texts, s.length ≤ maxStringFieldLength

/-- The conditions of acceptance that do not depend on the order. -/
structure FitsInAnyOrder (records : List JSString) : Prop where
  wellFormed : ∀ record ∈ records, IsWellFormed record
  count : (firstSeen (records.flatMap capabilitiesOf)).length ≤ maxCapabilityCount
  items : AllShort (records.flatMap capabilitiesOf)

/-- The records say anything at all. -/
def SaysSomething (records : List JSString) : Prop :=
  records.filterMap manifestOf ≠ [] ∨ records.filterMap skillOf ≠ [] ∨
    records.flatMap capabilitiesOf ≠ [] ∨ records.any saysArp

/-- Acceptance: of the manifests and of the skills, the last one counts. -/
theorem bridge_accepted_iff {records : List JSString} :
    BridgeAccepted records ↔
      FitsInAnyOrder records ∧ SaysSomething records ∧
        AllShort (records.filterMap manifestOf).getLast?.toList ∧
        AllShort (records.filterMap skillOf).getLast?.toList := by
  have hshort (texts : List JSString) : AllShort texts.getLast?.toList ↔
      ∀ s, texts.getLast? = some s → s.length ≤ maxStringFieldLength := by
    simp [AllShort]
  constructor
  · rintro ⟨hwell, haccepted⟩
    obtain ⟨hendpoint, hskill, hcapabilities, harp⟩ := empty_fold_fields_eq hwell
    obtain ⟨hmanifestShort, hskillShort, hcount, hitems, hsignal⟩ := haccepted
    rw [hcapabilities] at hcount hitems hsignal
    rw [hendpoint] at hmanifestShort hsignal
    rw [hskill] at hskillShort hsignal
    rw [harp, List.getLast?_isSome, List.getLast?_isSome] at hsignal
    refine ⟨⟨hwell, hcount, fun item hitem => hitems item (mem_first_seen.mpr hitem)⟩, ?_,
      (hshort _).mpr hmanifestShort, (hshort _).mpr hskillShort⟩
    refine hsignal.imp_right (Or.imp_right (Or.imp_left fun hne hnil => hne ?_))
    rw [hnil]
    rfl
  · rintro ⟨⟨hwell, hcount, hitems⟩, hsignals, hmanifestShort, hskillShort⟩
    obtain ⟨hendpoint, hskill, hcapabilities, harp⟩ := empty_fold_fields_eq hwell
    refine ⟨hwell, ?_, ?_, ?_, ?_, ?_⟩
    · rw [hendpoint]
      exact (hshort _).mp hmanifestShort
    · rw [hskill]
      exact (hshort _).mp hskillShort
    · rw [hcapabilities]
      exact hcount
    · rw [hcapabilities]
      exact fun item hitem => hitems item (mem_first_seen.mp hitem)
    · rw [hendpoint, hskill, hcapabilities, harp, List.getLast?_isSome, List.getLast?_isSome]
      refine hsignals.imp_right (Or.imp_right (Or.imp_left fun hne hnil => hne ?_))
      refine List.eq_nil_iff_forall_not_mem.mpr fun item hitem => ?_
      have hmem : item ∈ firstSeen (records.flatMap capabilitiesOf) := mem_first_seen.mpr hitem
      exact List.not_mem_nil (hnil ▸ hmem)

theorem FitsInAnyOrder.perm {records records' : List JSString} (h : records.Perm records')
    (hfits : FitsInAnyOrder records) : FitsInAnyOrder records' where
  wellFormed record hrecord := hfits.wellFormed record (h.mem_iff.mpr hrecord)
  count := by
    rw [← (first_seen_perm (h.flatMap_right capabilitiesOf)).length_eq]
    exact hfits.count
  items item hitem := hfits.items item ((h.flatMap_right capabilitiesOf).mem_iff.mpr hitem)

theorem perm_nil_iff {α : Type} {xs ys : List α} (h : xs.Perm ys) : xs = [] ↔ ys = [] := by
  rw [← List.length_eq_zero_iff, ← List.length_eq_zero_iff, h.length_eq]

theorem SaysSomething.perm {records records' : List JSString} (h : records.Perm records')
    (hsignals : SaysSomething records) : SaysSomething records' := by
  rcases hsignals with hmanifest | hskill | hitems | harp
  · exact Or.inl (mt (perm_nil_iff (h.filterMap manifestOf)).mpr hmanifest)
  · exact Or.inr (Or.inl (mt (perm_nil_iff (h.filterMap skillOf)).mpr hskill))
  · exact Or.inr (Or.inr (Or.inl (mt (perm_nil_iff (h.flatMap_right capabilitiesOf)).mpr hitems)))
  · obtain ⟨record, hrecord, hsaid⟩ := List.any_eq_true.mp harp
    exact Or.inr (Or.inr (Or.inr (List.any_eq_true.mpr ⟨record, h.mem_iff.mp hrecord, hsaid⟩)))

/-! ## When the order shows -/

/-- There is no text, or one that fits into a string field. -/
def HasShort (texts : List JSString) : Prop :=
  texts = [] ∨ ∃ s ∈ texts, s.length ≤ maxStringFieldLength

/-- The answer is decided by which manifest and which skill come last: there is no versioned value,
everything else about the bridge records is in order, some manifest or skill is too long, and
neither kind has only texts that are too long. -/
structure OrderSensitive (values : List JSString) : Prop where
  unversioned : ∀ value ∈ values, isVersioned value = false
  fits : FitsInAnyOrder (bridgeRecords values)
  manifest : HasShort ((bridgeRecords values).filterMap manifestOf)
  skill : HasShort ((bridgeRecords values).filterMap skillOf)
  long : (∃ s ∈ (bridgeRecords values).filterMap manifestOf, maxStringFieldLength < s.length) ∨
    ∃ s ∈ (bridgeRecords values).filterMap skillOf, maxStringFieldLength < s.length

theorem HasShort.perm {texts texts' : List JSString} (h : texts.Perm texts')
    (hshort : HasShort texts) : HasShort texts' := by
  rcases hshort with rfl | ⟨s, hs, hle⟩
  · exact Or.inl h.nil_eq.symm
  · exact Or.inr ⟨s, h.mem_iff.mp hs, hle⟩

theorem bridge_records_perm {values values' : List JSString} (h : values.Perm values') :
    (bridgeRecords values).Perm (bridgeRecords values') :=
  h.filter isBridge

theorem OrderSensitive.perm {values values' : List JSString} (h : values.Perm values')
    (hsensitive : OrderSensitive values) : OrderSensitive values' := by
  have hrecords := bridge_records_perm h
  have hmanifests := hrecords.filterMap manifestOf
  have hskills := hrecords.filterMap skillOf
  refine ⟨fun value hvalue => hsensitive.unversioned value (h.mem_iff.mpr hvalue),
    hsensitive.fits.perm hrecords, hsensitive.manifest.perm hmanifests,
    hsensitive.skill.perm hskills, ?_⟩
  rcases hsensitive.long with ⟨s, hs, hlong⟩ | ⟨s, hs, hlong⟩
  · exact Or.inl ⟨s, hmanifests.mem_iff.mp hs, hlong⟩
  · exact Or.inr ⟨s, hskills.mem_iff.mp hs, hlong⟩

theorem has_short_of_last {texts : List JSString} (h : AllShort texts.getLast?.toList) :
    HasShort texts := by
  cases hlast : texts.getLast? with
  | none => exact Or.inl (List.getLast?_eq_none_iff.mp hlast)
  | some s => exact Or.inr ⟨s, List.mem_of_getLast? hlast, h s (by simp [hlast])⟩

theorem all_short_last {texts : List JSString} (h : AllShort texts) :
    AllShort texts.getLast?.toList :=
  fun s hs => h s (List.mem_of_getLast? (by simpa using hs))

/-- Where the order does not show, a permutation of accepted records is accepted. -/
theorem accepted_perm {values values' : List JSString} (h : values.Perm values')
    (hunversioned : ∀ value ∈ values, isVersioned value = false)
    (hstable : ¬ OrderSensitive values) (haccepted : BridgeAccepted (bridgeRecords values)) :
    BridgeAccepted (bridgeRecords values') := by
  obtain ⟨hfits, hsignals, hmanifest, hskill⟩ := bridge_accepted_iff.mp haccepted
  have hrecords := bridge_records_perm h
  have hnone : ¬ ((∃ s ∈ (bridgeRecords values).filterMap manifestOf,
      maxStringFieldLength < s.length) ∨
      ∃ s ∈ (bridgeRecords values).filterMap skillOf, maxStringFieldLength < s.length) :=
    fun hlong => hstable ⟨hunversioned, hfits, has_short_of_last hmanifest,
      has_short_of_last hskill, hlong⟩
  have hmanifests : AllShort ((bridgeRecords values').filterMap manifestOf) := fun s hs =>
    Nat.not_lt.mp fun hlt =>
      hnone (Or.inl ⟨s, (hrecords.filterMap manifestOf).mem_iff.mpr hs, hlt⟩)
  have hskills : AllShort ((bridgeRecords values').filterMap skillOf) := fun s hs =>
    Nat.not_lt.mp fun hlt => hnone (Or.inr ⟨s, (hrecords.filterMap skillOf).mem_iff.mpr hs, hlt⟩)
  exact bridge_accepted_iff.mpr ⟨hfits.perm hrecords, hsignals.perm hrecords,
    all_short_last hmanifests, all_short_last hskills⟩

/-! ## Two orders that disagree -/

/-- The record gives a manifest or a skill that is too long. -/
def givesLongText (value : JSString) : Bool :=
  (manifestOf value).any (fun s => maxStringFieldLength < s.length) ||
    (skillOf value).any fun s => maxStringFieldLength < s.length

/-- The lists that put the records with long texts first and last. -/
def longFirst (values : List JSString) : List JSString :=
  values.filter givesLongText ++ values.filter fun value => !givesLongText value

def longLast (values : List JSString) : List JSString :=
  (values.filter fun value => !givesLongText value) ++ values.filter givesLongText

/-- No record gives both a manifest and a skill. -/
theorem manifest_or_skill {value s : JSString} (h : manifestOf value = some s) :
    skillOf value = none := by
  unfold manifestOf at h
  unfold skillOf
  split at h
  · rename_i hentry
    rw [hentry]
  · cases h

section

variable {f : JSString → Option JSString} {records : List JSString}
  (hlong : ∀ value s, f value = some s →
    (givesLongText value = true ↔ maxStringFieldLength < s.length))

theorem gives_long_manifest {value s : JSString} (h : manifestOf value = some s) :
    givesLongText value = true ↔ maxStringFieldLength < s.length := by
  simp [givesLongText, h, manifest_or_skill h]

theorem gives_long_skill {value s : JSString} (h : skillOf value = some s) :
    givesLongText value = true ↔ maxStringFieldLength < s.length := by
  have hmanifest : manifestOf value = none := by
    cases hvalue : manifestOf value with
    | none => rfl
    | some t => rw [manifest_or_skill hvalue] at h; cases h
  simp [givesLongText, h, hmanifest]

include hlong

/-- With the long texts first, the last text is short if any is. -/
theorem last_short_of_long_first (hshort : HasShort (records.filterMap f)) :
    AllShort ((longFirst records).filterMap f).getLast?.toList := by
  have htail : AllShort ((records.filter fun value => !givesLongText value).filterMap f) := by
    intro s hs
    obtain ⟨value, hvalue, hf⟩ := List.mem_filterMap.mp hs
    obtain ⟨_, hnot⟩ := List.mem_filter.mp hvalue
    exact Nat.not_lt.mp fun hlt => by simp [(hlong value s hf).mpr hlt] at hnot
  rw [longFirst, List.filterMap_append]
  rcases hshort with hnil | ⟨s, hs, hle⟩
  · have hnone : ∀ value ∈ records, f value = none := List.filterMap_eq_nil_iff.mp hnil
    rw [List.filterMap_eq_nil_iff.mpr fun value h => hnone value (List.mem_filter.mp h).1,
      List.filterMap_eq_nil_iff.mpr fun value h => hnone value (List.mem_filter.mp h).1]
    exact fun s hs => nomatch hs
  · obtain ⟨value, hvalue, hf⟩ := List.mem_filterMap.mp hs
    have hmem : s ∈ (records.filter fun value => !givesLongText value).filterMap f := by
      refine List.mem_filterMap.mpr ⟨value, List.mem_filter.mpr ⟨hvalue, ?_⟩, hf⟩
      have hnot := mt (hlong value s hf).mp (Nat.not_lt.mpr hle)
      simpa using hnot
    rw [List.getLast?_append_of_ne_nil _ (List.ne_nil_of_mem hmem)]
    exact all_short_last htail

/-- With the long texts last, the last text is long if any is. -/
theorem last_long_of_long_last
    (hexists : ∃ s ∈ records.filterMap f, maxStringFieldLength < s.length) :
    ¬ AllShort ((longLast records).filterMap f).getLast?.toList := by
  obtain ⟨s, hs, hlt⟩ := hexists
  obtain ⟨value, hvalue, hf⟩ := List.mem_filterMap.mp hs
  have hmem : s ∈ (records.filter givesLongText).filterMap f :=
    List.mem_filterMap.mpr ⟨value, List.mem_filter.mpr ⟨hvalue, (hlong value s hf).mpr hlt⟩, hf⟩
  rw [longLast, List.filterMap_append,
    List.getLast?_append_of_ne_nil _ (List.ne_nil_of_mem hmem)]
  obtain ⟨last, hlast⟩ :=
    Option.isSome_iff_exists.mp (List.getLast?_isSome.mpr (List.ne_nil_of_mem hmem))
  obtain ⟨other, hother, hother'⟩ := List.mem_filterMap.mp (List.mem_of_getLast? hlast)
  have hbad := (hlong other last hother').mp (List.mem_filter.mp hother).2
  intro hall
  exact absurd (hall last (by simp [hlast])) (Nat.not_le.mpr hbad)

end

theorem long_first_perm (values : List JSString) : (longFirst values).Perm values :=
  List.filter_append_perm givesLongText values

theorem long_last_perm (values : List JSString) : (longLast values).Perm values :=
  List.perm_append_comm.trans (List.filter_append_perm givesLongText values)

theorem bridge_records_long_first (values : List JSString) :
    bridgeRecords (longFirst values) = longFirst (bridgeRecords values) := by
  simp only [bridgeRecords, longFirst, List.filter_append, List.filter_filter, Bool.and_comm]

theorem bridge_records_long_last (values : List JSString) :
    bridgeRecords (longLast values) = longLast (bridgeRecords values) := by
  simp only [bridgeRecords, longLast, List.filter_append, List.filter_filter, Bool.and_comm]

/-- Where the order shows, one order is accepted. -/
theorem accepted_long_first {values : List JSString} (h : OrderSensitive values) :
    BridgeAccepted (bridgeRecords (longFirst values)) := by
  have hrecords : (bridgeRecords values).Perm (bridgeRecords (longFirst values)) :=
    bridge_records_perm (long_first_perm values).symm
  have hsignals : SaysSomething (bridgeRecords values) := by
    rcases h.long with ⟨s, hs, _⟩ | ⟨s, hs, _⟩
    · exact Or.inl (List.ne_nil_of_mem hs)
    · exact Or.inr (Or.inl (List.ne_nil_of_mem hs))
  refine bridge_accepted_iff.mpr ⟨h.fits.perm hrecords, hsignals.perm hrecords, ?_, ?_⟩
  · rw [bridge_records_long_first]
    exact last_short_of_long_first (fun _ _ => gives_long_manifest) h.manifest
  · rw [bridge_records_long_first]
    exact last_short_of_long_first (fun _ _ => gives_long_skill) h.skill

/-- Where the order shows, one order is not accepted. -/
theorem not_accepted_long_last {values : List JSString} (h : OrderSensitive values) :
    ¬ BridgeAccepted (bridgeRecords (longLast values)) := by
  intro haccepted
  obtain ⟨_, _, hmanifest, hskill⟩ := bridge_accepted_iff.mp haccepted
  rw [bridge_records_long_last] at hmanifest hskill
  rcases h.long with hlong | hlong
  · exact last_long_of_long_last (fun _ _ => gives_long_manifest) hlong hmanifest
  · exact last_long_of_long_last (fun _ _ => gives_long_skill) hlong hskill

/-! ## The outcome of a parse -/

variable {json : Json} {values : List JSString}

/-- The result when no value is valid versioned metadata. -/
theorem parse_none_found {records : List TxtRecord}
    (h : ∀ value ∈ records.map joinTxtRecord, foundIdentity json value = none) :
    parseTxtRecords json records = finishParse (records.map joinTxtRecord)
      (tally json (records.map joinTxtRecord) emptyParseResult) :=
  parse_loop_none_found h

/-- The end of a parse with diagnostics does not read the bridge records. -/
theorem finish_with_diagnostics {result : ParseResult}
    (h : ¬ (result.malformed = [] ∧ result.unsupported = [])) :
    finishParse values result =
      { result with
        status := if result.malformed = [] then .unsupportedRecords else .malformedRecords } := by
  have hguard : (result.malformed.isEmpty && result.unsupported.isEmpty) = false := by
    simpa [Bool.and_eq_false_iff] using fun hm hu => h ⟨by simpa using hm, by simpa using hu⟩
  simp only [finishParse, hguard, Bool.false_eq_true, if_false]
  by_cases hmalformed : result.malformed = []
  · have hunsupported : result.unsupported ≠ [] := fun hu => h ⟨hmalformed, hu⟩
    simp [hmalformed, hunsupported]
  · simp [hmalformed]

/-- The result object at the end of the loop when no value is versioned. -/
theorem tally_unversioned (h : ∀ value ∈ values, isVersioned value = false) :
    tally json values emptyParseResult = { emptyParseResult with ignored := values } := by
  have hignored : (values.filter fun value => !isVersioned value) = values :=
    List.filter_eq_self.mpr fun value hvalue => by simp [h value hvalue]
  have hmalformed : values.filterMap (malformedDiagnostic json) = [] :=
    List.filterMap_eq_nil_iff.mpr fun value hvalue => by
      by_contra hsome
      have hversioned := versioned_of_malformed (Option.isSome_iff_ne_none.mpr hsome)
      simp [h value hvalue] at hversioned
  have hunsupported : values.filterMap (unsupportedDiagnostic json) = [] :=
    List.filterMap_eq_nil_iff.mpr fun value hvalue => by
      by_contra hsome
      have hversioned := versioned_of_unsupported (Option.isSome_iff_ne_none.mpr hsome)
      simp [h value hvalue] at hversioned
  simp only [tally, hignored, hmalformed, hunsupported]
  rfl

/-- The parse of values none of which is versioned is the end of the loop. -/
theorem parse_unversioned (json : Json) {records : List TxtRecord}
    (h : ∀ value ∈ records.map joinTxtRecord, isVersioned value = false) :
    parseTxtRecords json records = finishParse (records.map joinTxtRecord)
      { emptyParseResult with ignored := records.map joinTxtRecord } := by
  have hnone : ∀ value ∈ records.map joinTxtRecord, foundIdentity json value = none := by
    intro value hvalue
    by_contra hsome
    have hversioned := versioned_of_found (Option.isSome_iff_ne_none.mpr hsome)
    simp [h value hvalue] at hversioned
  rw [parse_none_found hnone, tally_unversioned h]

/-- The end of such a parse, by the bridge records. -/
theorem finish_unversioned (values : List JSString) :
    (bridgeRecords values = [] →
        finishParse values { emptyParseResult with ignored := values } =
          { emptyParseResult with ignored := values }) ∧
      (BridgeAccepted (bridgeRecords values) → bridgeRecords values ≠ [] →
        (finishParse values { emptyParseResult with ignored := values }).status = .found) ∧
      (¬ BridgeAccepted (bridgeRecords values) → bridgeRecords values ≠ [] →
        ∃ message, finishParse values { emptyParseResult with ignored := values } =
          { emptyParseResult with
            status := .malformedRecords
            malformed := [⟨message, join (bridgeRecords values) [unit '\n']⟩]
            ignored := values.filter fun value => !(bridgeRecords values).contains value }) := by
  refine ⟨fun hnil => ?_, fun haccepted hne => ?_, fun hrejected hne => ?_⟩
  · simp [finishParse, bridge_fallback_none hnil, emptyParseResult]
  · obtain ⟨identity, hfallback⟩ := (bridge_fallback_some hne).1 haccepted
    simp [finishParse, hfallback, emptyParseResult]
  · obtain ⟨message, hfallback⟩ := (bridge_fallback_some hne).2 hrejected
    exact ⟨message, by simp [finishParse, hfallback, emptyParseResult]⟩

/-! ## Stability -/

/-- The record values that the malformed diagnostics cover: a versioned record stands for itself,
and the diagnostic of the bridge fallback for all the bridge records. -/
def coveredRecords (values : List JSString) (result : ParseResult) : List JSString :=
  result.malformed.flatMap fun diagnostic =>
    if isVersioned diagnostic.record then [diagnostic.record] else bridgeRecords values

/-- Two orders of the same records are reported alike. -/
structure SameReport (json : Json) (records records' : List TxtRecord) : Prop where
  status : (parseTxtRecords json records).status = (parseTxtRecords json records').status
  ignored : (parseTxtRecords json records).status ≠ .found →
    (parseTxtRecords json records).ignored.Perm (parseTxtRecords json records').ignored
  unsupported : (parseTxtRecords json records).status ≠ .found →
    ((parseTxtRecords json records).unsupported.map Diagnostic.record).Perm
      ((parseTxtRecords json records').unsupported.map Diagnostic.record)
  malformed : (parseTxtRecords json records).status ≠ .found →
    (coveredRecords (records.map joinTxtRecord) (parseTxtRecords json records)).Perm
      (coveredRecords (records'.map joinTxtRecord) (parseTxtRecords json records'))

theorem joined_bridge_not_versioned (values : List JSString) (hne : bridgeRecords values ≠ []) :
    isVersioned (join (bridgeRecords values) [unit '\n']) = false := by
  obtain ⟨first, rest, hrecords⟩ := List.exists_cons_of_ne_nil hne
  have hfirst : isBridge first := bridge_records_all first (by rw [hrecords]; simp)
  obtain ⟨tail, htail⟩ : ∃ tail, join (bridgeRecords values) [unit '\n'] = first ++ tail := by
    rw [hrecords, join]
    cases rest with
    | nil => exact ⟨[], by simp⟩
    | cons second rest => exact ⟨_, by rw [List.intercalate_cons_cons, List.append_assoc]⟩
  rw [htail]
  by_contra hversioned
  exact not_versioned_and_bridge _ ⟨by simpa using hversioned, bridge_append hfirst⟩

theorem same_report_of_found {records records' : List TxtRecord}
    (h : (parseTxtRecords json records).status = .found)
    (h' : (parseTxtRecords json records').status = .found) : SameReport json records records' where
  status := h.trans h'.symm
  ignored hne := absurd h hne
  unsupported hne := absurd h hne
  malformed hne := absurd h hne

/-- When a valid versioned value is there, every order finds metadata. -/
theorem parse_found_of_mem {records : List TxtRecord} {value : JSString}
    (hvalue : value ∈ records.map joinTxtRecord) (h : (foundIdentity json value).isSome) :
    (parseTxtRecords json records).status = .found := by
  rcases first_found json (records.map joinTxtRecord) with
    hnone | ⟨before, first, after, identity, hsplit, hbefore, hfound⟩
  · simp [hnone value hvalue] at h
  · simp only [parseTxtRecords, hsplit]
    rw [parse_loop_found hbefore hfound]

/-- With versioned values none of which is valid, every order reports the same diagnostics. -/
theorem same_report_of_diagnostics {records records' : List TxtRecord}
    (h : records.Perm records')
    (hnone : ∀ value ∈ records.map joinTxtRecord, foundIdentity json value = none)
    (hversioned : ∃ value ∈ records.map joinTxtRecord, isVersioned value) :
    SameReport json records records' := by
  have hvalues : (records.map joinTxtRecord).Perm (records'.map joinTxtRecord) := h.map _
  have hnone' : ∀ value ∈ records'.map joinTxtRecord, foundIdentity json value = none :=
    fun value hvalue => hnone value (hvalues.mem_iff.mpr hvalue)
  have hversioned' : ∃ value ∈ records'.map joinTxtRecord, isVersioned value := by
    obtain ⟨value, hvalue, hmarked⟩ := hversioned
    exact ⟨value, hvalues.mem_iff.mp hvalue, hmarked⟩
  have hparse := (parse_none_found hnone).trans
    (finish_with_diagnostics (tally_diagnostic hversioned hnone))
  have hparse' := (parse_none_found hnone').trans
    (finish_with_diagnostics (tally_diagnostic hversioned' hnone'))
  have hmalformed : (tally json (records.map joinTxtRecord) emptyParseResult).malformed.Perm
      (tally json (records'.map joinTxtRecord) emptyParseResult).malformed :=
    hvalues.filterMap (malformedDiagnostic json)
  have hunsupported : (tally json (records.map joinTxtRecord) emptyParseResult).unsupported.Perm
      (tally json (records'.map joinTxtRecord) emptyParseResult).unsupported :=
    hvalues.filterMap (unsupportedDiagnostic json)
  have hignored : (tally json (records.map joinTxtRecord) emptyParseResult).ignored.Perm
      (tally json (records'.map joinTxtRecord) emptyParseResult).ignored :=
    hvalues.filter fun value => !isVersioned value
  refine ⟨?_, fun _ => ?_, fun _ => ?_, fun _ => ?_⟩
  · rw [hparse, hparse']
    simp only [perm_nil_iff hmalformed]
  · rw [hparse, hparse']
    exact hignored
  · rw [hparse, hparse']
    exact hunsupported.map Diagnostic.record
  · rw [hparse, hparse']
    -- every diagnostic here is one of a versioned value
    have hcovered : ∀ values : List JSString,
        coveredRecords values { tally json values emptyParseResult with
          status := if (tally json values emptyParseResult).malformed = [] then
            .unsupportedRecords else .malformedRecords } =
          (tally json values emptyParseResult).malformed.map Diagnostic.record := by
      intro values
      rw [coveredRecords, List.map_eq_flatMap]
      refine List.flatMap_congr fun diagnostic hmem => if_pos ?_
      obtain ⟨value, _, hsome⟩ := List.mem_filterMap.mp hmem
      rw [malformed_diagnostic_record hsome]
      exact versioned_of_malformed (Option.isSome_iff_exists.mpr ⟨diagnostic, hsome⟩)
    rw [hcovered, hcovered]
    exact hmalformed.map Diagnostic.record

/-- Without a versioned value, two orders whose bridge records are accepted or rejected alike are
reported alike. -/
theorem same_report_of_bridge {records records' : List TxtRecord} (h : records.Perm records')
    (hunversioned : ∀ value ∈ records.map joinTxtRecord, isVersioned value = false)
    (haccepted : BridgeAccepted (bridgeRecords (records.map joinTxtRecord)) ↔
      BridgeAccepted (bridgeRecords (records'.map joinTxtRecord))) :
    SameReport json records records' := by
  have hvalues : (records.map joinTxtRecord).Perm (records'.map joinTxtRecord) := h.map _
  have hrecords := bridge_records_perm hvalues
  have hunversioned' : ∀ value ∈ records'.map joinTxtRecord, isVersioned value = false :=
    fun value hvalue => hunversioned value (hvalues.mem_iff.mpr hvalue)
  have hparse := parse_unversioned json hunversioned
  have hparse' := parse_unversioned json hunversioned'
  obtain ⟨hempty, hfound, hmalformed⟩ := finish_unversioned (records.map joinTxtRecord)
  obtain ⟨hempty', hfound', hmalformed'⟩ := finish_unversioned (records'.map joinTxtRecord)
  by_cases hnil : bridgeRecords (records.map joinTxtRecord) = []
  · rw [hempty hnil] at hparse
    rw [hempty' ((perm_nil_iff hrecords).mp hnil)] at hparse'
    refine ⟨?_, fun _ => ?_, fun _ => ?_, fun _ => ?_⟩ <;> rw [hparse, hparse']
    · exact hvalues
    · exact .refl _
  · have hne' := mt (perm_nil_iff hrecords).mpr hnil
    by_cases hok : BridgeAccepted (bridgeRecords (records.map joinTxtRecord))
    · refine same_report_of_found ?_ ?_
      · rw [hparse]
        exact hfound hok hnil
      · rw [hparse']
        exact hfound' (haccepted.mp hok) hne'
    · obtain ⟨message, hfinish⟩ := hmalformed hok hnil
      obtain ⟨message', hfinish'⟩ := hmalformed' (mt haccepted.mpr hok) hne'
      rw [hfinish] at hparse
      rw [hfinish'] at hparse'
      refine ⟨?_, fun _ => ?_, fun _ => ?_, fun _ => ?_⟩ <;> rw [hparse, hparse']
      · have hcontains : (bridgeRecords (records.map joinTxtRecord)).contains =
            (bridgeRecords (records'.map joinTxtRecord)).contains := by
          funext value
          exact hrecords.contains_eq
        rw [hcontains]
        exact hvalues.filter _
      · simp only [coveredRecords, List.flatMap_cons, List.flatMap_nil, List.append_nil,
          joined_bridge_not_versioned _ hnil, joined_bridge_not_versioned _ hne',
          Bool.false_eq_true, if_false]
        exact hrecords

/-- Where the order shows, the order with the long texts first finds metadata and the one with the
long texts last is malformed. -/
theorem orders_disagree (json : Json) {values : List JSString} {first last : List TxtRecord}
    (h : OrderSensitive values) (hfirst : first.map joinTxtRecord = longFirst values)
    (hlast : last.map joinTxtRecord = longLast values) :
    (parseTxtRecords json first).status = .found ∧
      (parseTxtRecords json last).status = .malformedRecords := by
  have hne : bridgeRecords values ≠ [] := by
    rcases h.long with ⟨s, hs, _⟩ | ⟨s, hs, _⟩
    · exact fun hnil => by simp [hnil] at hs
    · exact fun hnil => by simp [hnil] at hs
  have hfirstPerm := long_first_perm values
  have hlastPerm := long_last_perm values
  constructor
  · have hunversioned : ∀ value ∈ first.map joinTxtRecord, isVersioned value = false := by
      rw [hfirst]
      exact fun value hvalue => h.unversioned value (hfirstPerm.mem_iff.mp hvalue)
    rw [parse_unversioned json hunversioned, hfirst]
    exact (finish_unversioned _).2.1 (accepted_long_first h)
      (mt (perm_nil_iff (bridge_records_perm hfirstPerm)).mp hne)
  · have hunversioned : ∀ value ∈ last.map joinTxtRecord, isVersioned value = false := by
      rw [hlast]
      exact fun value hvalue => h.unversioned value (hlastPerm.mem_iff.mp hvalue)
    obtain ⟨message, hfinish⟩ := (finish_unversioned (longLast values)).2.2
      (not_accepted_long_last h) (mt (perm_nil_iff (bridge_records_perm hlastPerm)).mp hne)
    rw [parse_unversioned json hunversioned, hlast, hfinish]

/-- An answer is reported alike in every order exactly when it is not decided by which manifest and
which skill come last. -/
theorem diagnostics_stable_iff (json : Json) (records : List TxtRecord) :
    (∀ records', records.Perm records' → SameReport json records records') ↔
      ¬ OrderSensitive (records.map joinTxtRecord) := by
  constructor
  · intro hstable hsensitive
    -- the two orders that put the long texts first and last
    have hfirst : (records.filter (fun record => givesLongText (joinTxtRecord record)) ++
        records.filter fun record => !givesLongText (joinTxtRecord record)).map joinTxtRecord =
          longFirst (records.map joinTxtRecord) := by
      simp only [longFirst, List.map_append, List.filter_map]
      rfl
    have hlast : ((records.filter fun record => !givesLongText (joinTxtRecord record)) ++
        records.filter fun record => givesLongText (joinTxtRecord record)).map joinTxtRecord =
          longLast (records.map joinTxtRecord) := by
      simp only [longLast, List.map_append, List.filter_map]
      rfl
    obtain ⟨hfound, hmalformed⟩ := orders_disagree json hsensitive hfirst hlast
    have hsame := hstable _ (List.filter_append_perm
      (fun record => givesLongText (joinTxtRecord record)) records).symm
    have hsame' := hstable _ (List.perm_append_comm.trans (List.filter_append_perm
      (fun record => givesLongText (joinTxtRecord record)) records)).symm
    have hstatus := hsame.status.symm.trans hsame'.status
    rw [hfound, hmalformed] at hstatus
    cases hstatus
  · intro hstable records' h
    have hvalues : (records.map joinTxtRecord).Perm (records'.map joinTxtRecord) := h.map _
    by_cases hfound : ∃ value ∈ records.map joinTxtRecord, (foundIdentity json value).isSome
    · obtain ⟨value, hvalue, hsome⟩ := hfound
      exact same_report_of_found (parse_found_of_mem hvalue hsome)
        (parse_found_of_mem (hvalues.mem_iff.mp hvalue) hsome)
    · have hnone : ∀ value ∈ records.map joinTxtRecord, foundIdentity json value = none :=
        fun value hvalue => by simpa using fun hsome => hfound ⟨value, hvalue, hsome⟩
      by_cases hversioned : ∃ value ∈ records.map joinTxtRecord, isVersioned value
      · exact same_report_of_diagnostics h hnone hversioned
      · have hunversioned : ∀ value ∈ records.map joinTxtRecord, isVersioned value = false :=
          fun value hvalue => by simpa using fun hmarked => hversioned ⟨value, hvalue, hmarked⟩
        have hunversioned' : ∀ value ∈ records'.map joinTxtRecord, isVersioned value = false :=
          fun value hvalue => hunversioned value (hvalues.mem_iff.mpr hvalue)
        exact same_report_of_bridge h hunversioned
          ⟨accepted_perm hvalues hunversioned hstable,
            accepted_perm hvalues.symm hunversioned' fun hsensitive =>
              hstable (hsensitive.perm hvalues.symm)⟩

/-! ## A manifest that is too long -/

/-- A manifest record. -/
def manifestRecord (value : JSString) : JSString := text "agent-manifest" ++ unit ':' :: value

section

variable {value : JSString}

theorem manifest_record_index :
    firstDelimiterIndex (manifestRecord value) = some (text "agent-manifest").length := by
  refine first_delimiter_index_append (Or.inl rfl) fun d hd => ?_
  exact not_or.mpr ((by decide : ∀ d ∈ text "agent-manifest", d ≠ unit ':' ∧ d ≠ unit '=') d hd)

theorem manifest_record_value :
    (manifestRecord value).drop ((text "agent-manifest").length + 1) = value := by
  rw [manifestRecord, List.append_cons, List.drop_left' (by simp)]

theorem manifest_record_key :
    delimitedKey (manifestRecord value) (text "agent-manifest").length =
      text "agent-manifest" := by
  rw [delimitedKey, manifestRecord, List.take_left]
  decide +kernel

theorem manifest_record_entry (h : trim value ≠ []) :
    bridgeEntry (manifestRecord value) = some (.endpoint (trim value)) := by
  simp only [bridgeEntry, manifest_record_index, manifest_record_key, manifest_record_value,
    List.isEmpty_iff, h, if_false, true_or, if_true]

theorem manifest_record_is_bridge : isBridge (manifestRecord value) := by
  simp only [isBridge, getHeadlessProfileKey, manifest_record_index, manifest_record_key]
  decide

theorem manifest_record_well_formed (h : trim value ≠ [])
    (hlength : value.length + 15 ≤ maxTxtValueLength) : IsWellFormed (manifestRecord value) := by
  constructor
  · simp only [manifestRecord, List.length_append, List.length_cons]
    simp only [text, List.length_map] at *
    exact le_trans (by simp; omega) hlength
  · simp only [getDelimitedValue, manifest_record_index, Option.map_some, manifest_record_value,
      Option.all_some]
    simpa using h

end

/-- A manifest of 2049 units. -/
def longManifest : JSString := List.replicate 2049 (unit 'x')

theorem trim_long_manifest : trim longManifest = longManifest := by
  refine trimmed_of_no_whitespace fun c hc => ?_
  rw [List.eq_of_mem_replicate hc]
  decide

theorem manifest_record_texts {value : JSString} (h : trim value ≠ []) :
    manifestOf (manifestRecord value) = some (trim value) ∧
      skillOf (manifestRecord value) = none ∧ capabilitiesOf (manifestRecord value) = [] := by
  simp only [manifestOf, skillOf, capabilitiesOf, manifest_record_entry h, and_self]

/-- A list of manifests that are neither blank nor too long for a record, one too long for a field
and one not, is decided by its order. -/
theorem manifests_order_sensitive {long short : JSString} (hlong : trim long ≠ [])
    (hshort : trim short ≠ []) (hlongLength : long.length + 15 ≤ maxTxtValueLength)
    (hshortLength : short.length + 15 ≤ maxTxtValueLength)
    (htooLong : maxStringFieldLength < (trim long).length)
    (hfits : (trim short).length ≤ maxStringFieldLength) :
    OrderSensitive [manifestRecord long, manifestRecord short] := by
  have hrecords : bridgeRecords [manifestRecord long, manifestRecord short] =
      [manifestRecord long, manifestRecord short] := by
    simp [bridgeRecords, manifest_record_is_bridge]
  obtain ⟨hmanifest, hskill, hcapabilities⟩ := manifest_record_texts hlong
  obtain ⟨hmanifest', hskill', hcapabilities'⟩ := manifest_record_texts hshort
  refine ⟨fun value hvalue => ?_, ⟨fun record hrecord => ?_, ?_, ?_⟩, ?_, ?_, ?_⟩
  · rcases List.mem_pair.mp hvalue with rfl | rfl
    · simpa using fun h => not_versioned_and_bridge _ ⟨h, manifest_record_is_bridge⟩
    · simpa using fun h => not_versioned_and_bridge _ ⟨h, manifest_record_is_bridge⟩
  · rw [hrecords] at hrecord
    rcases List.mem_pair.mp hrecord with rfl | rfl
    · exact manifest_record_well_formed hlong hlongLength
    · exact manifest_record_well_formed hshort hshortLength
  · simp [hrecords, hcapabilities, hcapabilities', firstSeen]
  · simp [hrecords, hcapabilities, hcapabilities', AllShort]
  · rw [hrecords]
    exact Or.inr ⟨trim short, by simp [hmanifest, hmanifest'], hfits⟩
  · rw [hrecords]
    exact Or.inl (by simp [hskill, hskill'])
  · rw [hrecords]
    exact Or.inl ⟨trim long, by simp [hmanifest], htooLong⟩

/-- Swapping a manifest that is too long for its field with one that is not swaps a found identity
for a malformed diagnostic. -/
theorem diagnostics_not_stable :
    ¬ ∀ (json : Json) (records records' : List TxtRecord), records.Perm records' →
      SameReport json records records' := by
  intro hstable
  have hlength : longManifest.length = 2049 := List.length_replicate
  have hne : trim longManifest ≠ [] := by
    rw [trim_long_manifest]
    exact List.ne_nil_of_length_pos (by omega)
  have hsensitive : OrderSensitive [manifestRecord longManifest, manifestRecord [unit 'a']] := by
    refine manifests_order_sensitive hne (by decide) ?_ (by decide) ?_ (by decide)
    · rw [hlength]
      decide
    · rw [trim_long_manifest, hlength]
      decide
  have hlong : givesLongText (manifestRecord longManifest) = true :=
    (gives_long_manifest (manifest_record_texts hne).1).mpr (by
      rw [trim_long_manifest, hlength]
      decide)
  have hshort : givesLongText (manifestRecord [unit 'a']) = false := by decide +kernel
  have hfirst : [TxtRecord.single (manifestRecord longManifest),
        .single (manifestRecord [unit 'a'])].map joinTxtRecord =
      longFirst [manifestRecord longManifest, manifestRecord [unit 'a']] := by
    simp [longFirst, joinTxtRecord, hlong, hshort]
  have hlast : [TxtRecord.single (manifestRecord [unit 'a']),
        .single (manifestRecord longManifest)].map joinTxtRecord =
      longLast [manifestRecord longManifest, manifestRecord [unit 'a']] := by
    simp [longLast, joinTxtRecord, hlong, hshort]
  obtain ⟨hfound, hmalformed⟩ := orders_disagree .rejecting hsensitive hfirst hlast
  have hsame := (hstable .rejecting _ _ (.swap (.single (manifestRecord [unit 'a']))
    (.single (manifestRecord longManifest)) [])).status
  rw [hfound, hmalformed] at hsame
  cases hsame

end AgentResolver
