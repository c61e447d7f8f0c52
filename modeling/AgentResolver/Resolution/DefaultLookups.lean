import AgentResolver.Name.LookupNames
import AgentResolver.Resolver

/-!
# The default lookup names

The longest default location takes 16 units in front of the name, and one query name that is too
long makes `buildLookupNames` throw for the whole list, the apex included. So a name in normal form
can be looked up at the default locations exactly when it has at most 237 units, although names of
up to 253 units are accepted: `default_lookups_iff`.
-/

namespace AgentResolver

open JavaScript
open Interaction Sequence

variable {name : JSString}

/-! ## The list of lookup names -/

/-- The apex and the two default locations below it. -/
def defaultLookups (name : JSString) : List Lookup :=
  [⟨text "@", name⟩, ⟨text "_agent", text "_agent." ++ name⟩,
    ⟨text "_agent-identity", text "_agent-identity." ++ name⟩]

/-- The entries below the apex, as a label in front of the name. -/
theorem default_lookups_eq (name : JSString) :
    defaultLookups name =
      [⟨text "@", name⟩, ⟨text "_agent", text "_agent" ++ unit '.' :: name⟩,
        ⟨text "_agent-identity", text "_agent-identity" ++ unit '.' :: name⟩] := by
  have hagent : text "_agent." ++ name = text "_agent" ++ unit '.' :: name :=
    append_parts [unit '.'] (by decide) name
  have hidentity : text "_agent-identity." ++ name = text "_agent-identity" ++ unit '.' :: name :=
    append_parts [unit '.'] (by decide) name
  rw [defaultLookups, hagent, hidentity]

/-- A label in front of a name that leaves room for it makes a lookup name. -/
theorem lookup_name_below {label : JSString} (hname : IsHandshakeName name)
    (hlabel : 1 ≤ label.length ∧ label.length ≤ 63 ∧ lookupLabelRe label)
    (hdot : unit '.' ∉ label) (hlength : label.length + 1 + name.length ≤ 253) :
    IsLookupName (label ++ unit '.' :: name) := by
  have hsplit : split (label ++ unit '.' :: name) (unit '.') =
      label :: split name (unit '.') := by
    rw [split, List.splitOn_append_cons_self, ← split, split_no_separator hdot]
    rfl
  refine ⟨by simp only [List.length_append, List.length_cons]; omega, ?_⟩
  rw [hsplit, List.forall_mem_cons]
  exact ⟨hlabel, hname.lookup_name.labels⟩

/-- The step on a location that is a label in lower case. -/
theorem lookup_of_label {label : JSString} (hname : IsHandshakeName name)
    (hform : toLowerCase (trim label) = label) (hne : trim label ≠ []) (hapex : label ≠ text "@")
    (hlabel : 1 ≤ label.length ∧ label.length ≤ 63 ∧ lookupLabelRe label)
    (hdot : unit '.' ∉ label) :
    lookupOf name (.string label) =
      if label.length + 1 + name.length ≤ 253 then .ok ⟨label, label ++ unit '.' :: name⟩
      else .error ⟨text "lookup name is too long"⟩ := by
  rw [lookup_of_string hne, hform, lookupAt, queryNameOf, if_neg hapex]
  by_cases hlength : label.length + 1 + name.length ≤ 253
  · rw [if_pos hlength, validate_lookup_name_ok.mpr (lookup_name_below hname hlabel hdot hlength)]
    rfl
  · have hlong : (label ++ unit '.' :: name).length > 253 := by
      simp only [List.length_append, List.length_cons]
      omega
    rw [if_neg hlength, validateLookupName, if_pos hlong]
    rfl

theorem lookup_of_apex (hname : IsHandshakeName name) :
    lookupOf name (.string (text "@")) = .ok ⟨text "@", name⟩ :=
  (lookup_of_ok hname).mpr ⟨⟨text "@", rfl, by decide, Or.inl (by decide)⟩, rfl⟩

/-- The three query names are distinct. -/
theorem default_lookups_distinct (name : JSString) :
    ((defaultLookups name).map Lookup.queryName).Nodup := by
  have hqueries : (defaultLookups name).map Lookup.queryName =
      [text "@", text "_agent", text "_agent-identity"].map (queryNameOf name) := by
    simp only [default_lookups_eq, List.map_cons, List.map_nil, queryNameOf, if_true]
    rw [if_neg (by decide), if_neg (by decide)]
  have hforms : [text "@", text "_agent", text "_agent-identity"].Nodup := by decide
  rw [hqueries, List.Nodup, List.pairwise_map]
  exact hforms.imp fun hne heq => hne (query_name_injective name _ _ heq)

/-- The lookup names at the default locations. -/
theorem build_default_lookups (hname : IsHandshakeName name) :
    buildLookupNames name none =
      if name.length ≤ 237 then .ok (defaultLookups name)
      else .error ⟨text "lookup name is too long"⟩ := by
  have hagent := @lookup_of_label name (text "_agent") hname (by decide +kernel) (by decide)
    (by decide) (by decide) (by decide)
  have hidentity := @lookup_of_label name (text "_agent-identity") hname (by decide +kernel)
    (by decide) (by decide) (by decide) (by decide)
  have hbuild : buildLookupNames name none =
      (defaultLookupLocations.mapM (lookupOf name)).map (distinctBy Lookup.queryName []) := by
    rw [← collect_lookup_names_eq, buildLookupNames, hname.normalize]
    rfl
  have hshort : (text "_agent").length = 6 := rfl
  have hlong : (text "_agent-identity").length = 15 := rfl
  rw [hbuild, defaultLookupLocations, List.mapM_cons, lookup_of_apex hname, List.mapM_cons, hagent,
    List.mapM_cons, hidentity, List.mapM_nil, hshort, hlong]
  by_cases hlength : name.length ≤ 237
  · have hdistinct :
        distinctBy Lookup.queryName [] (defaultLookups name) = defaultLookups name := by
      rw [distinct_by_of_nodup (default_lookups_distinct name)]
      simp
    rw [default_lookups_eq] at hdistinct ⊢
    rw [if_pos hlength, if_pos (by omega), if_pos (by omega)]
    exact congrArg Except.ok hdistinct
  · rw [if_neg hlength]
    -- The loop throws at the first label that does not fit.
    by_cases hagentFits : 6 + 1 + name.length ≤ 253
    · rw [if_pos hagentFits, if_neg (by omega)]
      rfl
    · rw [if_neg hagentFits]
      rfl

/-! ## Resolving the name -/

/-- The apex answers first: with metadata in its TXT records the search ends there. -/
theorem find_loop_apex {json : Json} {source : Source} {dnsResult : DnsResult}
    (hfound : (parseTxtRecords json dnsResult.records.TXT).status = .found)
    (lookup : Lookup) (hlookup : lookup.queryName = name) (rest : List Lookup) (trace : Trace) :
    findLoop json source name dnsResult (lookup :: rest) [] trace =
      (.ok ⟨some (parseTxtRecords json dnsResult.records.TXT), some lookup,
        [metadataAttemptFromParsed lookup (parseTxtRecords json dnsResult.records.TXT)
          dnsResult.records.TXT]⟩, trace) := by
  have hne : dnsResult.records.TXT.isEmpty = false := by
    cases hrecords : dnsResult.records.TXT with
    | nil =>
        rw [hrecords] at hfound
        exact absurd hfound (by
          simp [parseTxtRecords, parseLoop, finishParse, parseHeadlessProfileRecords,
            emptyParseResult])
    | cons record records => rfl
  have hrecords : lookupRecords source name dnsResult lookup trace =
      (.ok (.ok dnsResult.records.TXT), trace) := by
    simp only [lookupRecords, hlookup, if_true, hne, Bool.false_eq_true, if_false]
    rfl
  rw [findLoop, Run.bind_ok hrecords]
  simp only [hfound, if_true, List.nil_append]
  rfl

/-- A valid name can be looked up: the apex is the first lookup name, only sub-locations that would
be too long are left out, and `resolve` gets past the lookup names where the apex carries
metadata. -/
structure CanBeLookedUp (input name : JSString) : Prop where
  lookups : ∃ lookups, buildLookupNames input none = .ok lookups ∧
    lookups.head? = some ⟨text "@", name⟩ ∧ lookups.Sublist (defaultLookups name) ∧
    (∀ lookup ∈ defaultLookups name, lookup ∉ lookups → lookup.queryName.length > 253) ∧
    (lookups.map Lookup.queryName).Nodup
  resolves : ∀ (json : Json) (options : ResolverOptions) (trace next : Trace)
    (dnsResult : DnsResult), options.lookupLocations = none →
    resolveName options.source name trace = (.ok dnsResult, next) →
    (parseTxtRecords json dnsResult.records.TXT).status = .found →
      ∃ search, lookupMetadata json options input trace = (.ok (name, dnsResult, search), next)

/-- A name can be looked up at the default locations exactly when it leaves room for the longest of
them; otherwise the list is rejected as a whole. -/
theorem default_lookups_iff {input : JSString} (hname : normalizeHandshakeName input = .ok name) :
    (CanBeLookedUp input name ↔ name.length ≤ 237) ∧
      (¬ name.length ≤ 237 →
        buildLookupNames input none = .error ⟨text "lookup name is too long"⟩) := by
  have hvalid := normalize_valid hname
  have hbuild : buildLookupNames input none = buildLookupNames name none := by
    rw [buildLookupNames, buildLookupNames, hname, hvalid.normalize]
  rw [hbuild, build_default_lookups hvalid]
  refine ⟨⟨fun h => ?_, fun hlength => ?_⟩, fun hlength => if_neg hlength⟩
  · by_contra hlength
    obtain ⟨⟨lookups, hlookups, _⟩, _⟩ := h
    rw [hbuild, build_default_lookups hvalid, if_neg hlength] at hlookups
    cases hlookups
  · refine ⟨⟨defaultLookups name, ?_, rfl, List.Sublist.refl _, ?_,
      default_lookups_distinct name⟩, ?_⟩
    · rw [hbuild, build_default_lookups hvalid, if_pos hlength]
    · intro lookup hmem hnot
      exact absurd hmem hnot
    · intro json options trace next dnsResult hdefault hresolve hfound
      obtain ⟨search, hsearch⟩ : ∃ search, findMetadata json options.source name dnsResult
          options.lookupLocations next = (.ok search, next) := by
        rw [findMetadata, hdefault, build_default_lookups hvalid, if_pos hlength]
        exact ⟨_, find_loop_apex hfound _ rfl _ next⟩
      refine ⟨search, ?_⟩
      rw [lookupMetadata, hname, Run.bind_ok (Run.lift_apply _ _), Run.bind_ok hresolve,
        Run.bind_ok hsearch]
      rfl

/-- A short name can be looked up. -/
theorem default_lookups_iff_example : CanBeLookedUp (text "Example.") (text "example") := by
  have hname : normalizeHandshakeName (text "Example.") = .ok (text "example") := by
    decide +kernel
  exact (default_lookups_iff hname).1.mpr (by decide)

/-- A name of 238 units. -/
def longName : JSString :=
  join [List.replicate 63 (unit 'a'), List.replicate 63 (unit 'a'), List.replicate 63 (unit 'a'),
    List.replicate 46 (unit 'a')] [unit '.']

/-- The long name is valid, and its lookup names are rejected. -/
theorem long_name_rejected :
    normalizeHandshakeName longName = .ok longName ∧ ¬ CanBeLookedUp longName longName := by
  have hvalid : IsHandshakeName longName := ⟨by decide +kernel, by decide +kernel⟩
  refine ⟨hvalid.normalize, fun h => ?_⟩
  obtain ⟨⟨lookups, hlookups, _⟩, _⟩ := h
  rw [build_default_lookups hvalid, if_neg (by decide +kernel)] at hlookups
  cases hlookups

end AgentResolver
