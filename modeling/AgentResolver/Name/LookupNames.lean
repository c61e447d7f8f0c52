import AgentResolver.Name.Grammar
import AgentResolver.Sequence.FirstSeen
import AgentResolver.Sequence.Search

/-!
# Lookup names

What `buildLookupNames` returns for any list of locations. Each location is checked on its own, and
the entries are those of the distinct locations in order of first occurrence
(`collect_lookup_names_eq`): two locations ask for the same name only when they are the same
(`query_name_injective`). `lookup_locations_spec` is the whole function.
-/

namespace AgentResolver

open JavaScript Sequence

variable {name : JSString}

/-! ## One location -/

/-- What the loop does with a location: the entry, or the first error. -/
def lookupOf (name : JSString) (location : LookupLocation) : Except JSError Lookup := do
  let form ← locationText location
  validateLookupName (queryNameOf name form)
  return ⟨form, queryNameOf name form⟩

/-- The query name passes `validateLookupName`. -/
structure IsLookupName (queryName : JSString) : Prop where
  length_le : queryName.length ≤ 253
  labels : ∀ label ∈ split queryName (unit '.'),
    1 ≤ label.length ∧ label.length ≤ 63 ∧ lookupLabelRe label

/-- A location that is a nonblank string whose trimmed and lower-cased form is `@` or yields a
valid query name below the name. -/
def IsUsableLocation (name : JSString) (location : LookupLocation) : Prop :=
  ∃ value, location = .string value ∧ trim value ≠ [] ∧
    (toLowerCase (trim value) = text "@" ∨
      IsLookupName (toLowerCase (trim value) ++ unit '.' :: name))

/-- The normalised form of a location. -/
def locationForm : LookupLocation → JSString
  | .string value => toLowerCase (trim value)
  | .nonString => []

/-- The entry of a normalised form. -/
def lookupAt (name form : JSString) : Lookup := ⟨form, queryNameOf name form⟩

theorem validate_lookup_name_ok {queryName : JSString} :
    validateLookupName queryName = .ok () ↔ IsLookupName queryName := by
  unfold validateLookupName
  by_cases hlength : queryName.length > 253
  · rw [if_pos hlength]
    constructor
    · intro h
      cases h
    · rintro ⟨hle, _⟩
      omega
  · rw [if_neg hlength]
    dsimp only
    by_cases hempty : (split queryName (unit '.')).any List.isEmpty
    · rw [if_pos hempty]
      constructor
      · intro h
        cases h
      · rintro ⟨_, hlabels⟩
        obtain ⟨label, hlabel, hnil⟩ := List.any_eq_true.mp hempty
        obtain ⟨hpos, _⟩ := hlabels label hlabel
        rw [List.isEmpty_iff.mp hnil] at hpos
        exact absurd hpos (by decide)
    · rw [if_neg hempty, check_labels_ok]
      constructor
      · intro h
        refine ⟨Nat.not_lt.mp hlength, fun label hlabel => ⟨?_, h label hlabel⟩⟩
        rw [Bool.not_eq_true, List.any_eq_false] at hempty
        have hne := hempty label hlabel
        rw [List.isEmpty_iff] at hne
        exact List.length_pos_iff.mpr hne
      · rintro ⟨_, hlabels⟩ label hlabel
        exact (hlabels label hlabel).2

/-- A label of a name in normal form is a lookup label. -/
theorem lookup_label_of_handshake {label : JSString} (h : handshakeLabelRe label) :
    lookupLabelRe label := by
  cases label with
  | nil => cases h
  | cons c rest =>
      obtain ⟨hfirst, hrest⟩ := label_pattern_iff.mp h
      refine label_pattern_iff.mpr ⟨by simp [hfirst], fun hne => ?_⟩
      obtain ⟨hlength, hinner, hlast⟩ := hrest hne
      refine ⟨hlength, fun d hd => ?_, hlast⟩
      have hd := hinner d hd
      rw [Bool.or_eq_true] at hd
      rcases hd with hd | hd <;> simp [hd]

/-- The apex is a lookup name. -/
theorem IsHandshakeName.lookup_name (h : IsHandshakeName name) : IsLookupName name where
  length_le := h.length_le
  labels label hlabel := by
    obtain ⟨hne, hlength, _⟩ := handshake_label_spec (h.labels label hlabel)
    exact ⟨List.length_pos_iff.mpr hne, hlength, lookup_label_of_handshake (h.labels label hlabel)⟩

/-- The step on a nonblank string: the check of the query name decides. -/
theorem lookup_of_string {value : JSString} (hne : trim value ≠ []) :
    lookupOf name (.string value) =
      (validateLookupName (queryNameOf name (toLowerCase (trim value)))).map fun _ =>
        lookupAt name (toLowerCase (trim value)) := by
  rw [lookupOf, locationText, if_neg (by simp [hne])]
  simp only [bind, Except.bind]
  cases validateLookupName (queryNameOf name (toLowerCase (trim value))) with
  | error error => rfl
  | ok => rfl

/-- A nonblank string is usable exactly when its query name passes the check; the name itself
does. -/
theorem usable_location_iff (hname : IsHandshakeName name) {value : JSString}
    (hne : trim value ≠ []) :
    IsUsableLocation name (.string value) ↔
      validateLookupName (queryNameOf name (toLowerCase (trim value))) = .ok () := by
  rw [validate_lookup_name_ok]
  by_cases hapex : toLowerCase (trim value) = text "@"
  · rw [hapex, queryNameOf, if_pos rfl]
    exact iff_of_true ⟨value, rfl, hne, Or.inl hapex⟩ hname.lookup_name
  · rw [queryNameOf, if_neg hapex]
    constructor
    · rintro ⟨other, hother, _, hform⟩
      cases hother
      exact hform.resolve_left hapex
    · intro h
      exact ⟨value, rfl, hne, Or.inr h⟩

/-- The step succeeds on usable locations, with the entry of the normalised form. -/
theorem lookup_of_ok (hname : IsHandshakeName name) {location : LookupLocation}
    {lookup : Lookup} :
    lookupOf name location = .ok lookup ↔
      IsUsableLocation name location ∧ lookupAt name (locationForm location) = lookup := by
  cases location with
  | nonString =>
      refine iff_of_false (fun h => by cases h) ?_
      rintro ⟨⟨value, hvalue, _⟩, _⟩
      cases hvalue
  | string value =>
      by_cases hblank : trim value = []
      · have herror : lookupOf name (.string value) =
            .error ⟨text "lookup locations must be non-empty strings"⟩ := by
          rw [lookupOf, locationText, if_pos (by simp [hblank])]
          rfl
        rw [herror]
        refine iff_of_false (fun h => by cases h) ?_
        rintro ⟨⟨other, hother, hne, _⟩, _⟩
        cases hother
        exact hne hblank
      · rw [lookup_of_string hblank, usable_location_iff hname hblank, locationForm]
        cases validateLookupName (queryNameOf name (toLowerCase (trim value))) with
        | error error =>
            refine iff_of_false (fun h => by cases h) ?_
            rintro ⟨h, _⟩
            cases h
        | ok => simp only [Except.map, Except.ok.injEq, true_and]

/-! ## The loop -/

/-- The loop makes the entries one by one and keeps those with new query names. -/
theorem collect_lookup_names_eq (name : JSString) (seen : List JSString)
    (locations : List LookupLocation) :
    collectLookupNames name seen locations =
      (locations.mapM (lookupOf name)).map (distinctBy Lookup.queryName seen) := by
  induction locations generalizing seen with
  | nil => rfl
  | cons location rest ih =>
      rw [collectLookupNames, List.mapM_cons, lookupOf]
      cases locationText location with
      | error error => rfl
      | ok form =>
          simp only [bind, Except.bind]
          cases validateLookupName (queryNameOf name form) with
          | error error => rfl
          | ok =>
              simp only [ih]
              cases rest.mapM (lookupOf name) with
              | error error => simp [Except.map, pure, Except.pure]
              | ok found =>
                  simp only [Except.map, pure, Except.pure, distinctBy]
                  by_cases hseen : queryNameOf name form ∈ seen
                  · simp only [hseen, if_true]
                  · simp only [hseen, if_false]

/-- Different locations ask for different names. -/
theorem query_name_injective (name : JSString) (left right : JSString)
    (h : queryNameOf name left = queryNameOf name right) : left = right := by
  unfold queryNameOf at h
  split at h
  · rename_i hleft
    split at h
    · rename_i hright
      exact hleft.trans hright.symm
    -- A query name below the apex is longer than the name.
    · have hlength := congrArg List.length h
      simp only [List.length_append, List.length_cons] at hlength
      omega
  · split at h
    · have hlength := congrArg List.length h
      simp only [List.length_append, List.length_cons] at hlength
      omega
    · exact List.append_cancel_right h

/-- The loop returns exactly on lists of usable locations, with the entries of the distinct forms
in order of first occurrence. -/
theorem collect_lookup_names_ok (hname : IsHandshakeName name)
    {locations : List LookupLocation} {lookups : List Lookup} :
    collectLookupNames name [] locations = .ok lookups ↔
      (∀ location ∈ locations, IsUsableLocation name location) ∧
        lookups = (firstSeen (locations.map locationForm)).map (lookupAt name) := by
  have hdistinct : distinctBy Lookup.queryName [] (locations.map fun location =>
      lookupAt name (locationForm location)) =
        (firstSeen (locations.map locationForm)).map (lookupAt name) := by
    have hmap : (locations.map fun location => lookupAt name (locationForm location)) =
        (locations.map locationForm).map (lookupAt name) := by
      rw [List.map_map]
      rfl
    rw [first_seen_eq, ← distinct_by_injective (query_name_injective name) [], hmap,
      distinct_by_map]
    rfl
  have hall {found : List Lookup} : locations.mapM (lookupOf name) = .ok found ↔
      (∀ location ∈ locations, IsUsableLocation name location) ∧
        (locations.map fun location => lookupAt name (locationForm location)) = found := by
    rw [map_m_ok, ← List.forall₂_eq_eq_eq, List.forall₂_map_left_iff, ← List.forall₂_and_left]
    simp only [lookup_of_ok hname]
  rw [collect_lookup_names_eq, ← hdistinct]
  constructor
  · intro h
    cases hfound : locations.mapM (lookupOf name) with
    | error error =>
        rw [hfound] at h
        cases h
    | ok found =>
        rw [hfound] at h
        cases h
        obtain ⟨husable, rfl⟩ := hall.mp hfound
        exact ⟨husable, rfl⟩
  · rintro ⟨husable, rfl⟩
    rw [hall.mpr ⟨husable, rfl⟩]
    rfl

/-! ## Custom locations -/

/-- The entries for a list of normalised locations: one for each distinct location in order of
first occurrence; its query name is the name itself for `@` and lies below the name for every
other location, and the query names are distinct. -/
structure IsLookupList (name : JSString) (forms : List JSString) (lookups : List Lookup) :
    Prop where
  locations : lookups.map Lookup.location = firstSeen forms
  distinct : (lookups.map Lookup.queryName).Nodup
  apex : ∀ lookup ∈ lookups, lookup.queryName = name ↔ lookup.location = text "@"
  below : ∀ lookup ∈ lookups, lookup.location ≠ text "@" →
    ∃ start, start ≠ [] ∧ lookup.queryName = start ++ unit '.' :: name
  once : (lookups.filter (·.queryName = name)).length =
    if text "@" ∈ forms then 1 else 0

/-- A location below the apex that is used is not empty. -/
theorem form_ne_nil {location : LookupLocation} (h : IsUsableLocation name location)
    (hne : locationForm location ≠ text "@") : locationForm location ≠ [] := by
  obtain ⟨value, rfl, -, hform⟩ := h
  have hvalid := hform.resolve_left hne
  intro hnil
  have hempty : [] ∈ split (locationForm (.string value) ++ unit '.' :: name) (unit '.') := by
    rw [hnil, split, List.nil_append, List.splitOn_cons_eq_if_modifyHead]
    simp
  exact absurd (hvalid.labels [] hempty).1 (by decide)

/-- The entries of the distinct forms. -/
theorem lookup_list_of_usable {locations : List LookupLocation}
    (husable : ∀ location ∈ locations, IsUsableLocation name location) :
    IsLookupList name (locations.map locationForm)
      ((firstSeen (locations.map locationForm)).map (lookupAt name)) := by
  have hqueries : ((firstSeen (locations.map locationForm)).map (lookupAt name)).map
      Lookup.queryName = (firstSeen (locations.map locationForm)).map (queryNameOf name) := by
    rw [List.map_map]
    rfl
  refine ⟨?_, ?_, fun lookup hlookup => ?_, fun lookup hlookup hne => ?_, ?_⟩
  · rw [List.map_map]
    exact List.map_id _
  · rw [hqueries, List.Nodup, List.pairwise_map]
    exact (nodup_first_seen _).imp fun hne heq => hne (query_name_injective name _ _ heq)
  · obtain ⟨form, _, rfl⟩ := List.mem_map.mp hlookup
    exact query_name_eq_name
  · obtain ⟨form, hform, rfl⟩ := List.mem_map.mp hlookup
    obtain ⟨location, hlocation, rfl⟩ := List.mem_map.mp (mem_first_seen.mp hform)
    have hne : locationForm location ≠ text "@" := hne
    exact ⟨locationForm location, form_ne_nil (husable location hlocation) hne, if_neg hne⟩
  · have hfilter : ((firstSeen (locations.map locationForm)).map (lookupAt name)).filter
        (·.queryName = name) =
          ((firstSeen (locations.map locationForm)).filter (· = text "@")).map (lookupAt name) := by
      rw [List.filter_map]
      congr 1
      refine List.filter_congr fun form _ => ?_
      exact decide_eq_decide.mpr query_name_eq_name
    have hcount : ((firstSeen (locations.map locationForm)).filter (· = text "@")).length =
        (firstSeen (locations.map locationForm)).count (text "@") := by
      rw [List.count, List.countP_eq_length_filter]
      refine congrArg List.length (List.filter_congr fun form _ => ?_)
      exact (beq_eq_decide form (text "@")).symm
    rw [hfilter, List.length_map, hcount, (nodup_first_seen _).count]
    simp only [mem_first_seen]

/-- For every list of locations `buildLookupNames` returns exactly when all of them are usable, and
then one entry for each distinct location. -/
theorem lookup_locations_spec {input name : JSString}
    (hname : normalizeHandshakeName input = .ok name) (locations : List LookupLocation) :
    ((∃ lookups, buildLookupNames input (some locations) = .ok lookups) ↔
        ∀ location ∈ locations, IsUsableLocation name location) ∧
      ∀ lookups, buildLookupNames input (some locations) = .ok lookups →
        IsLookupList name (locations.map locationForm) lookups := by
  have hvalid := normalize_valid hname
  have hbuild : buildLookupNames input (some locations) =
      collectLookupNames name [] locations := by
    rw [buildLookupNames, hname]
    rfl
  rw [hbuild]
  refine ⟨⟨?_, fun h => ?_⟩, fun lookups h => ?_⟩
  · rintro ⟨lookups, h⟩
    exact ((collect_lookup_names_ok hvalid).mp h).1
  · exact ⟨_, (collect_lookup_names_ok hvalid).mpr ⟨h, rfl⟩⟩
  · obtain ⟨husable, rfl⟩ := (collect_lookup_names_ok hvalid).mp h
    exact lookup_list_of_usable husable

/-- Three locations of which two are the same. -/
theorem lookup_locations_spec_example :
    ∃ lookups, buildLookupNames (text "Creator.")
        (some [.string (text "_identity"), .string (text " @ "), .string (text "_Identity")]) =
          .ok lookups ∧
      IsLookupList (text "creator") [text "_identity", text "@", text "_identity"] lookups := by
  have hname : normalizeHandshakeName (text "Creator.") = .ok (text "creator") := by
    decide +kernel
  have hlookups : buildLookupNames (text "Creator.")
      (some [.string (text "_identity"), .string (text " @ "), .string (text "_Identity")]) =
        .ok [⟨text "_identity", text "_identity.creator"⟩, ⟨text "@", text "creator"⟩] := by
    decide +kernel
  have hforms : [text "_identity", text "@", text "_identity"] =
      [LookupLocation.string (text "_identity"), .string (text " @ "),
        .string (text "_Identity")].map locationForm := by
    decide +kernel
  obtain ⟨-, hspec⟩ := lookup_locations_spec hname
    [.string (text "_identity"), .string (text " @ "), .string (text "_Identity")]
  rw [hforms]
  exact ⟨_, hlookups, hspec _ hlookups⟩

end AgentResolver
