import AgentResolver.Metadata.Schema
import AgentResolver.Name
import AgentResolver.Sequence.FirstSeen
import AgentResolver.Sequence.Search
import AgentResolver.Skill.Paths
import AgentResolver.Web.HttpUrls
import Mathlib.Data.List.Forall2
import Mathlib.Data.List.Nodup

/-!
# What a candidate plan is

`IsPlanFor` says what `buildSkillCandidatePlan` is for: the declared skill first, then the default
paths on the effective origin, each URL once, and a warning for each unusable part of the metadata.
Whenever the function returns, it returns such a plan (`build_plan_ok`). It throws when the
effective origin is not a valid URL or does not resolve a relative skill path: the `new URL` that
resolves paths is the only one outside a `try` block. A path can only fail to resolve when it
starts with a second slash (`local_reference_resolves`).
-/

namespace AgentResolver

open JavaScript Web
open Sequence

/-! ## Reading the metadata -/

/-- The URL of an endpoint that is a valid http or https URL. -/
def httpEndpoint (idna : Idna) (endpoint : Option JSString) : Option Url :=
  (endpoint.bind (newUrl idna)).filter isHttpUrl

/-- The endpoint's origin, else the name under the default scheme. -/
def expectedOrigin (idna : Idna) (scheme name : JSString) (endpoint : Option JSString) :
    JSString :=
  ((httpEndpoint idna endpoint).map Url.origin).getD (scheme ++ text "://" ++ name)

/-- An endpoint that is given but is no http or https URL. -/
def unusableEndpoint (idna : Idna) (endpoint : Option JSString) : Bool :=
  endpoint.any (fun endpoint => !endpoint.isEmpty) && (httpEndpoint idna endpoint).isNone

/-- The URL of a skill that is a valid http or https URL. -/
def absoluteSkill (idna : Idna) (skill : Option JSString) : Option Url :=
  ((skill.filter fun skill => urlSchemeRe (trim skill)).bind fun skill =>
    newUrl idna (trim skill)).filter isHttpUrl

/-- The reference that a skill without a scheme stands for. -/
def relativeReference (skill : Option JSString) : Option JSString :=
  (skill.filter fun skill => !(trim skill).isEmpty && !urlSchemeRe (trim skill)).map fun skill =>
    if startsWith (trim skill) [unit '/'] then trim skill else unit '/' :: trim skill

/-- A skill with a scheme that is no http or https URL. -/
def unusableSkill (idna : Idna) (skill : Option JSString) : Bool :=
  skill.any (fun skill => urlSchemeRe (trim skill)) && (absoluteSkill idna skill).isNone

/-- The candidate of an absolute skill URL. -/
def absoluteCandidate (url : Url) : Candidate where
  path := if url.pathname.isEmpty then [unit '/'] else url.pathname
  url := url.href

/-- The candidate of a reference that resolves. -/
def resolvedCandidate (idna : Idna) (origin reference : JSString) : Option Candidate :=
  (newUrlWithBase idna reference origin).map fun url => ⟨reference, url.href⟩

/-- The candidate that the metadata declares, if it is usable. -/
def declaredCandidate (idna : Idna) (origin : JSString) (skill : Option JSString) :
    Option Candidate :=
  ((absoluteSkill idna skill).map absoluteCandidate).or
    ((relativeReference skill).bind (resolvedCandidate idna origin))

/-- The two properties that a plan is made from. -/
def declaredEndpoint (metadata : Properties JSString) : Option JSString :=
  getProperty metadata (text "endpoint")

def declaredSkill (metadata : Properties JSString) : Option JSString :=
  getProperty metadata (text "skill")

/-- The declared candidate, then the default ones whose URLs it does not have. -/
def plannedCandidates (declared : Option Candidate) (defaults : List Candidate) :
    List Candidate :=
  declared.toList ++ defaults.filter fun candidate =>
    candidate.url ∉ declared.toList.map Candidate.url

/-- The contents of a plan. -/
structure IsPlanFor (idna : Idna) (origin : JSString) (metadata : Properties JSString)
    (plan : SkillCandidatePlan) : Prop where
  distinct : (plan.candidates.map Candidate.url).Nodup
  candidates : ∃ defaults,
    List.Forall₂ (fun path candidate => resolvedCandidate idna origin path = some candidate)
      defaultSkillPaths defaults ∧
    plan.candidates =
      plannedCandidates (declaredCandidate idna origin (declaredSkill metadata)) defaults ∧
    ∀ candidate ∈ defaults, (plan.candidates.map Candidate.url).count candidate.url = 1
  warnings : plan.warnings.length =
    (unusableEndpoint idna (declaredEndpoint metadata)).toNat +
      (unusableSkill idna (declaredSkill metadata)).toNat

/-- The reference that a relative skill stands for, if the skill is one, resolves. -/
def SkillResolves (idna : Idna) (origin : JSString) (skill : Option JSString) : Prop :=
  ∀ reference, relativeReference skill = some reference →
    (newUrlWithBase idna reference origin).isSome

/-- The origin is a valid URL, and a relative skill path resolves against it. -/
structure Plannable (idna : Idna) (origin : JSString) (metadata : Properties JSString) : Prop where
  validOrigin : (newUrl idna origin).isSome
  resolves : SkillResolves idna origin (declaredSkill metadata)

/-! ## The functions of the source -/

theorem is_http_url_iff {url : Url} : isHttpUrl url = true ↔ url.scheme ∈ httpSchemes := by
  have hscheme (scheme : ScalarString) :
      url.protocol = ofScalars (scheme ++ [':']) ↔ url.scheme = scheme := by
    rw [Url.protocol, of_scalars_injective.eq_iff, List.append_left_inj]
  have hhttp : text "http:" = ofScalars ("http".toList ++ [':']) := rfl
  have hhttps : text "https:" = ofScalars ("https".toList ++ [':']) := rfl
  simp only [isHttpUrl, httpSchemes, List.mem_cons, List.not_mem_nil, or_false,
    decide_eq_true_eq, hhttp, hhttps, hscheme]

variable {idna : Idna}

/-- A URL parsed from a text alone that passes `isHttpUrl`. -/
theorem new_url_http {input : JSString} {url : Url} (h : newUrl idna input = some url)
    (hhttp : isHttpUrl url) : url.IsHttp :=
  parse_absolute_http h (is_http_url_iff.mp hhttp)

/-- What `endpointOrigin` does with an endpoint: an unusable one costs one warning. -/
theorem endpoint_origin_eq (endpoint : Option JSString) :
    (endpointOrigin idna endpoint).2 = (httpEndpoint idna endpoint).map Url.origin ∧
      (endpointOrigin idna endpoint).1.length = (unusableEndpoint idna endpoint).toNat := by
  cases endpoint with
  | none => exact ⟨rfl, rfl⟩
  | some endpoint =>
      cases endpoint with
      | nil => exact ⟨rfl, rfl⟩
      | cons c rest =>
          cases hurl : newUrl idna (c :: rest) with
          | none =>
              simp [endpointOrigin, unusableEndpoint, httpEndpoint, hurl]
          | some url =>
              cases hhttp : isHttpUrl url with
              | false =>
                  simp [endpointOrigin, unusableEndpoint, httpEndpoint, Option.filter, hurl, hhttp]
              | true =>
                  simp [endpointOrigin, unusableEndpoint, httpEndpoint, Option.filter, hurl, hhttp]

/-- What `normalizePath` does with a skill: one with an unusable scheme costs one warning. -/
theorem normalize_path_eq (skill : Option JSString) :
    (normalizePath idna skill).2 =
        ((absoluteSkill idna skill).map fun url =>
          ⟨(absoluteCandidate url).path, some url.href⟩).or
        ((relativeReference skill).map fun reference => ⟨reference, none⟩) ∧
      (normalizePath idna skill).1.length = (unusableSkill idna skill).toNat := by
  cases skill with
  | none => exact ⟨rfl, rfl⟩
  | some skill =>
      cases hempty : (trim skill).isEmpty with
      | true =>
          have htrim : trim skill = [] := List.isEmpty_iff.mp hempty
          simp [normalizePath, unusableSkill, absoluteSkill, relativeReference, Option.filter,
            htrim, urlSchemeRe]
      | false =>
          cases hscheme : urlSchemeRe (trim skill) with
          | false =>
              simp [normalizePath, unusableSkill, absoluteSkill, relativeReference,
                Option.filter, hempty, hscheme]
          | true =>
              cases hurl : newUrl idna (trim skill) with
              | none =>
                  simp [normalizePath, unusableSkill, absoluteSkill, relativeReference,
                    Option.filter, hempty, hscheme, hurl]
              | some url =>
                  cases hhttp : isHttpUrl url with
                  | false =>
                      simp [normalizePath, unusableSkill, absoluteSkill, relativeReference,
                        Option.filter, hempty, hscheme, hurl, hhttp]
                  | true =>
                      simp [normalizePath, unusableSkill, absoluteSkill, relativeReference,
                        Option.filter, hempty, hscheme, hurl, hhttp, absoluteCandidate]

/-- What the loop makes of one raw path. -/
def pathCandidate (idna : Idna) (origin : JSString) (rawPath : Option JSString) :
    Except JSError (Option Candidate) :=
  match (normalizePath idna rawPath).2 with
  | none => .ok none
  | some normalized =>
      (candidateUrl idna origin normalized).map fun url => some ⟨normalized.path, url⟩

/-- The loop makes the candidates one by one and keeps those with new URLs. -/
theorem collect_candidates_eq (origin : JSString) (seen : List JSString)
    (rawPaths : List (Option JSString)) :
    collectCandidates idna origin seen rawPaths =
      (rawPaths.mapM (pathCandidate idna origin)).map fun found =>
        (distinctBy Candidate.url seen found.reduceOption,
          rawPaths.flatMap fun rawPath => (normalizePath idna rawPath).1) := by
  induction rawPaths generalizing seen with
  | nil => rfl
  | cons rawPath rest ih =>
      rw [collectCandidates, List.mapM_cons, List.flatMap_cons]
      cases hnormalized : normalizePath idna rawPath with
      | mk warnings normalized =>
          cases normalized with
          | none =>
              have hcandidate : pathCandidate idna origin rawPath = .ok none := by
                rw [pathCandidate, hnormalized]
              rw [hcandidate]
              dsimp only
              rw [ih]
              cases hrest : rest.mapM (pathCandidate idna origin) with
              | error error => rfl
              | ok found => rfl
          | some normalized =>
              have hcandidate : pathCandidate idna origin rawPath =
                  (candidateUrl idna origin normalized).map fun url =>
                    some ⟨normalized.path, url⟩ := by
                rw [pathCandidate, hnormalized]
              rw [hcandidate]
              dsimp only
              cases hurl : candidateUrl idna origin normalized with
              | error error => rfl
              | ok url =>
                  simp only [ih, bind, Except.bind, Except.map]
                  cases rest.mapM (pathCandidate idna origin) with
                  | error error => simp
                  | ok found =>
                      show _ = Except.ok (distinctBy Candidate.url seen
                        (⟨normalized.path, url⟩ :: found.reduceOption), _)
                      rw [distinctBy]
                      by_cases hseen : url ∈ seen
                      · simp only [hseen, if_true]
                        rfl
                      · simp only [hseen, if_false]
                        rfl

/-- A usable absolute skill has a scheme, so it is no relative reference. -/
theorem relative_reference_of_absolute {skill : Option JSString} {url : Url}
    (h : absoluteSkill idna skill = some url) : relativeReference skill = none := by
  unfold absoluteSkill at h
  obtain ⟨h, -⟩ := Option.filter_eq_some_iff.mp h
  obtain ⟨skill, hskill, -⟩ := Option.bind_eq_some_iff.mp h
  obtain ⟨rfl, hscheme⟩ := Option.filter_eq_some_iff.mp hskill
  simp [relativeReference, Option.filter, hscheme]

/-- A raw path throws exactly when it is a reference that does not resolve. -/
theorem path_candidate_ok {origin : JSString} {skill : Option JSString}
    {found : Option Candidate} :
    pathCandidate idna origin skill = .ok found ↔
      declaredCandidate idna origin skill = found ∧ SkillResolves idna origin skill := by
  unfold pathCandidate declaredCandidate SkillResolves
  rw [(normalize_path_eq skill).1]
  cases habsolute : absoluteSkill idna skill with
  | some url =>
      rw [relative_reference_of_absolute habsolute]
      simp [candidateUrl, Except.map, absoluteCandidate]
  | none =>
      cases hrelative : relativeReference skill with
      | none => simp
      | some reference =>
          cases hurl : newUrlWithBase idna reference origin with
          | none => simp [candidateUrl, resolvedCandidate, Except.map, hurl]
          | some url => simp [candidateUrl, resolvedCandidate, Except.map, hurl]

/-! ## The default paths -/

/-- A default path is a relative reference. -/
theorem default_is_reference {path : JSString} (h : path ∈ defaultSkillPaths) :
    relativeReference (some path) = some path ∧ absoluteSkill idna (some path) = none := by
  obtain ⟨hreference, hscheme⟩ := (by decide : ∀ path ∈ defaultSkillPaths,
    relativeReference (some path) = some path ∧ urlSchemeRe (trim path) = false) path h
  exact ⟨hreference, by simp [absoluteSkill, Option.filter, hscheme]⟩

/-- The text of an http URL up to its path. -/
def rootText (base : Url) : JSString := ofScalars (base.scheme ++ ':' :: base.serializeAuthority)

/-- A default path is a list of plain segments. -/
theorem default_is_plain {path : JSString} (h : path ∈ defaultSkillPaths) :
    ∃ rest, toScalars path = '/' :: rest ∧ stripTail rest = rest ∧
      rest.head?.any (isSlash true) = false ∧ (∀ c ∈ rest, inPathSet c = false) ∧
      (∀ segment ∈ rest.splitOnP (isSlash true), isPlainSegment segment) ∧
      ofScalars (serializePath (.segments (rest.splitOnP (isSlash true)))) = path := by
  simp only [defaultSkillPaths, List.mem_cons, List.not_mem_nil, or_false] at h
  rcases h with rfl | rfl | rfl
  · exact ⟨"SKILL.md".toList, by decide⟩
  · exact ⟨"skill.md".toList, by decide⟩
  · exact ⟨".well-known/agent/SKILL.md".toList, by decide⟩

/-- A default path resolves against every http URL, to the path itself on the same host. -/
theorem default_resolves {origin path : JSString} {base : Url}
    (horigin : newUrl idna origin = some base) (hbase : base.IsHttp)
    (hpath : path ∈ defaultSkillPaths) :
    resolvedCandidate idna origin path = some ⟨path, rootText base ++ path⟩ := by
  obtain ⟨rest, hscalars, hstrip, hslash, hkept, hplain, hwritten⟩ := default_is_plain hpath
  obtain ⟨host, hhost⟩ := Option.isSome_iff_exists.mp hbase.host
  have hparse : newUrlWithBase idna path origin =
      some (base.withTail (.segments (rest.splitOnP (isSlash true))) none none) := by
    rw [← hstrip] at hslash
    unfold newUrlWithBase
    rw [horigin]
    dsimp only
    rw [hscalars, parse_local hbase hslash, hstrip,
      @parse_path_plain base.withoutTail hbase.scheme rest hkept hplain]
    rfl
  have hauthority : (base.withTail (.segments (rest.splitOnP (isSlash true))) none
      none).serializeAuthority = base.serializeAuthority := by
    simp only [Url.serializeAuthority, Url.withTail, hhost]
  have hhref : (base.withTail (.segments (rest.splitOnP (isSlash true))) none none).href =
      rootText base ++ path := by
    rw [Url.href, Url.serialize, hauthority]
    show ofScalars (base.scheme ++ ':' :: base.serializeAuthority ++
      serializePath (.segments (rest.splitOnP (isSlash true))) ++ [] ++ []) = _
    rw [List.append_nil, List.append_nil, of_scalars_append, hwritten]
    rfl
  rw [resolvedCandidate, hparse, Option.map_some, hhref]

/-! ## Plans -/

/-- The two schemes that the resolver takes as its default. -/
def IsDefaultScheme (scheme : JSString) : Prop := scheme = text "http" ∨ scheme = text "https"

theorem effective_origin_eq (scheme name : JSString) (metadata : Properties JSString) :
    (effectiveOrigin idna name metadata scheme).2 =
        expectedOrigin idna scheme name (declaredEndpoint metadata) ∧
      (effectiveOrigin idna name metadata scheme).1.length =
        (unusableEndpoint idna (declaredEndpoint metadata)).toNat := by
  obtain ⟨horigin, hwarnings⟩ := @endpoint_origin_eq idna (declaredEndpoint metadata)
  unfold effectiveOrigin expectedOrigin
  rw [← horigin]
  exact ⟨rfl, hwarnings⟩

/-- A valid effective origin is an http or https URL. -/
theorem expected_origin_http {scheme name : JSString} {endpoint : Option JSString} {base : Url}
    (hscheme : IsDefaultScheme scheme)
    (h : newUrl idna (expectedOrigin idna scheme name endpoint) = some base) : base.IsHttp := by
  unfold expectedOrigin at h
  cases hendpoint : httpEndpoint idna endpoint with
  | some url =>
      obtain ⟨hurl, hhttp⟩ := Option.filter_eq_some_iff.mp hendpoint
      obtain ⟨endpoint, -, hurl⟩ := Option.bind_eq_some_iff.mp hurl
      have hkind := new_url_http hurl hhttp
      obtain ⟨rest, horigin⟩ := origin_http hkind
      rw [hendpoint, Option.map_some, Option.getD_some, horigin, newUrl,
        to_scalars_of_scalars] at h
      exact (parse_http_text_some hkind.scheme h).1
  | none =>
      rw [hendpoint, Option.map_none, Option.getD_none, newUrl] at h
      rcases hscheme with rfl | rfl
      · rw [show text "http" ++ text "://" = text "http://" from rfl,
          to_scalars_text_append (by decide)] at h
        exact (@parse_http_text_some idna "http".toList _ base (by decide) h).1
      · rw [show text "https" ++ text "://" = text "https://" from rfl,
          to_scalars_text_append (by decide)] at h
        exact (@parse_http_text_some idna "https".toList _ base (by decide) h).1

/-- The candidates of the default paths. -/
def defaultCandidates (base : Url) : List Candidate :=
  defaultSkillPaths.map fun path => ⟨path, rootText base ++ path⟩

theorem default_candidates_nodup (base : Url) :
    ((defaultCandidates base).map Candidate.url).Nodup := by
  rw [defaultCandidates, List.map_map]
  exact List.Nodup.map (fun _ _ h => List.append_cancel_left h) (by decide)

theorem default_candidates_resolve {origin : JSString} {base : Url}
    (horigin : newUrl idna origin = some base) (hbase : base.IsHttp) :
    List.Forall₂ (fun path candidate => resolvedCandidate idna origin path = some candidate)
      defaultSkillPaths (defaultCandidates base) := by
  rw [defaultCandidates, List.forall₂_map_right_iff, List.forall₂_same]
  exact fun path hpath => default_resolves horigin hbase hpath

/-- The loop over the skill and the default paths, when the origin is valid. -/
theorem map_m_candidates {origin : JSString} {base : Url} {skill : Option JSString}
    {found : List (Option Candidate)} (horigin : newUrl idna origin = some base)
    (hbase : base.IsHttp) :
    (skill :: defaultSkillPaths.map some).mapM (pathCandidate idna origin) = .ok found ↔
      SkillResolves idna origin skill ∧
        declaredCandidate idna origin skill :: (defaultCandidates base).map some = found := by
  have hdefaults : List.Forall₂ (fun rawPath found => pathCandidate idna origin rawPath = .ok found)
      (defaultSkillPaths.map some) ((defaultCandidates base).map some) := by
    rw [List.forall₂_map_left_iff, defaultCandidates, List.map_map, List.forall₂_map_right_iff,
      List.forall₂_same]
    intro path hpath
    obtain ⟨hreference, habsolute⟩ := @default_is_reference idna path hpath
    have hresolves := default_resolves horigin hbase hpath
    rw [path_candidate_ok]
    refine ⟨?_, ?_⟩
    · rw [declaredCandidate, habsolute, hreference, Option.map_none, Option.none_or,
        Option.bind_some, hresolves]
      rfl
    · intro reference h
      rw [hreference] at h
      obtain rfl := Option.some.inj h
      obtain ⟨url, hurl, -⟩ := Option.map_eq_some_iff.mp hresolves
      rw [hurl]
      rfl
  rw [map_m_ok, List.forall₂_cons_left_iff]
  constructor
  · rintro ⟨declared, rest, hdeclared, hrest, rfl⟩
    obtain ⟨rfl, hresolves⟩ := path_candidate_ok.mp hdeclared
    have hsame := (map_m_ok.mpr hdefaults).symm.trans (map_m_ok.mpr hrest)
    exact ⟨hresolves, congrArg _ (Except.ok.inj hsame)⟩
  · rintro ⟨hresolves, rfl⟩
    exact ⟨_, _, path_candidate_ok.mpr ⟨rfl, hresolves⟩, hdefaults, rfl⟩

theorem reduce_found (declared : Option Candidate) (defaults : List Candidate) :
    (declared :: defaults.map some).reduceOption = declared.toList ++ defaults := by
  have hdefaults : (defaults.map some).reduceOption = defaults := by
    change (defaults.map some).filterMap id = defaults
    rw [List.filterMap_map]
    exact List.filterMap_some
  cases declared with
  | none => exact hdefaults
  | some declared => exact congrArg (declared :: ·) hdefaults

/-- The default paths come without warnings. -/
theorem default_warnings {path : JSString} (h : path ∈ defaultSkillPaths) :
    (normalizePath idna (some path)).1 = [] := by
  rw [List.eq_nil_iff_length_eq_zero, (normalize_path_eq (some path)).2]
  have hscheme := (by decide : ∀ path ∈ defaultSkillPaths, urlSchemeRe (trim path) = false) path h
  simp [unusableSkill, hscheme]

/-- The candidates with new URLs, when the defaults have distinct ones. -/
theorem distinct_by_planned {declared : Option Candidate} {defaults : List Candidate}
    (h : (defaults.map Candidate.url).Nodup) :
    distinctBy Candidate.url [] (declared.toList ++ defaults) =
      plannedCandidates declared defaults := by
  cases declared with
  | none => exact distinct_by_of_nodup h
  | some declared =>
      show declared :: distinctBy Candidate.url [declared.url] defaults = _
      rw [distinct_by_of_nodup h]
      simp [plannedCandidates]

theorem planned_candidates_none (defaults : List Candidate) :
    plannedCandidates none defaults = defaults := by
  simp [plannedCandidates]

theorem planned_candidates_nodup {declared : Option Candidate} {defaults : List Candidate}
    (h : (defaults.map Candidate.url).Nodup) :
    ((plannedCandidates declared defaults).map Candidate.url).Nodup := by
  rw [← distinct_by_planned h]
  exact nodup_distinct_by _ _ _

/-- The URL of a default candidate occurs once. -/
theorem count_default {declared : Option Candidate} {defaults : List Candidate}
    (h : (defaults.map Candidate.url).Nodup) {candidate : Candidate}
    (hmem : candidate ∈ defaults) :
    ((plannedCandidates declared defaults).map Candidate.url).count candidate.url = 1 := by
  refine List.count_eq_one_of_mem (planned_candidates_nodup h) ?_
  unfold plannedCandidates
  rw [List.map_append, List.mem_append]
  by_cases hdeclared : candidate.url ∈ declared.toList.map Candidate.url
  · exact Or.inl hdeclared
  · exact Or.inr (List.mem_map_of_mem (List.mem_filter.mpr ⟨hmem, by simpa using hdeclared⟩))

/-- The function is the loop over the raw paths with the warnings collected. -/
theorem build_plan_eq (scheme name : JSString) (metadata : Properties JSString) :
    buildSkillCandidatePlan idna name metadata scheme =
      ((declaredSkill metadata :: defaultSkillPaths.map some).mapM (pathCandidate idna
        (expectedOrigin idna scheme name (declaredEndpoint metadata)))).map fun found =>
          { candidates := distinctBy Candidate.url [] found.reduceOption
            warnings := (effectiveOrigin idna name metadata scheme).1 ++
              (normalizePath idna (declaredSkill metadata)).1 } := by
  have hwarnings : (declaredSkill metadata :: defaultSkillPaths.map some).flatMap
      (fun rawPath => (normalizePath idna rawPath).1) =
        (normalizePath idna (declaredSkill metadata)).1 := by
    rw [List.flatMap_cons, List.flatMap_map, List.flatMap_eq_nil_iff.mpr, List.append_nil]
    exact fun path hpath => default_warnings hpath
  rw [← (effective_origin_eq scheme name metadata).1]
  unfold buildSkillCandidatePlan
  cases effectiveOrigin idna name metadata scheme with
  | mk warnings origin =>
      dsimp only
      rw [← declaredSkill, collect_candidates_eq, hwarnings]
      cases (declaredSkill metadata :: defaultSkillPaths.map some).mapM
        (pathCandidate idna origin) with
      | error error => rfl
      | ok found => rfl

/-- The function throws where the origin is not valid. -/
theorem origin_valid_of_build {scheme name : JSString} {metadata : Properties JSString}
    {plan : SkillCandidatePlan}
    (h : buildSkillCandidatePlan idna name metadata scheme = .ok plan) :
    (newUrl idna (expectedOrigin idna scheme name (declaredEndpoint metadata))).isSome := by
  rw [build_plan_eq] at h
  cases hfound : (declaredSkill metadata :: defaultSkillPaths.map some).mapM (pathCandidate idna
      (expectedOrigin idna scheme name (declaredEndpoint metadata))) with
  | error error =>
      rw [hfound] at h
      cases h
  | ok found =>
      -- The first default path has been resolved against it.
      obtain ⟨_, _, -, hdefaults, -⟩ := List.forall₂_cons_left_iff.mp (map_m_ok.mp hfound)
      obtain ⟨_, _, hfirst, -, -⟩ := List.forall₂_cons_left_iff.mp
        (show List.Forall₂ _ (some (text "/SKILL.md") :: _) _ from hdefaults)
      have hresolves := (path_candidate_ok.mp hfirst).2 (text "/SKILL.md") (by decide)
      cases horigin : newUrl idna (expectedOrigin idna scheme name (declaredEndpoint metadata)) with
      | some base => rfl
      | none =>
          rw [newUrlWithBase, horigin] at hresolves
          cases hresolves

/-- What the function returns when the origin is an http or https URL. -/
theorem build_plan_ok_http {scheme name : JSString} {metadata : Properties JSString} {base : Url}
    {plan : SkillCandidatePlan}
    (horigin :
      newUrl idna (expectedOrigin idna scheme name (declaredEndpoint metadata)) = some base)
    (hbase : base.IsHttp) :
    buildSkillCandidatePlan idna name metadata scheme = .ok plan ↔
      SkillResolves idna (expectedOrigin idna scheme name (declaredEndpoint metadata))
          (declaredSkill metadata) ∧
        { candidates := plannedCandidates
            (declaredCandidate idna (expectedOrigin idna scheme name (declaredEndpoint metadata))
              (declaredSkill metadata)) (defaultCandidates base)
          warnings := (effectiveOrigin idna name metadata scheme).1 ++
            (normalizePath idna (declaredSkill metadata)).1 } = plan := by
  have hnodup := default_candidates_nodup base
  rw [build_plan_eq]
  constructor
  · intro h
    cases hfound : (declaredSkill metadata :: defaultSkillPaths.map some).mapM (pathCandidate idna
        (expectedOrigin idna scheme name (declaredEndpoint metadata))) with
    | error error =>
        rw [hfound] at h
        cases h
    | ok found =>
        obtain ⟨hresolves, rfl⟩ := (map_m_candidates horigin hbase).mp hfound
        rw [hfound, Except.map, reduce_found, distinct_by_planned hnodup] at h
        exact ⟨hresolves, Except.ok.inj h⟩
  · rintro ⟨hresolves, rfl⟩
    rw [(map_m_candidates horigin hbase).mpr ⟨hresolves, rfl⟩, Except.map, reduce_found,
      distinct_by_planned hnodup]

/-- What the function returns when the origin is valid. -/
theorem build_plan_ok_iff {scheme name : JSString} {metadata : Properties JSString} {base : Url}
    {plan : SkillCandidatePlan} (hscheme : IsDefaultScheme scheme)
    (horigin :
      newUrl idna (expectedOrigin idna scheme name (declaredEndpoint metadata)) = some base) :
    buildSkillCandidatePlan idna name metadata scheme = .ok plan ↔
      SkillResolves idna (expectedOrigin idna scheme name (declaredEndpoint metadata))
          (declaredSkill metadata) ∧
        { candidates := plannedCandidates
            (declaredCandidate idna (expectedOrigin idna scheme name (declaredEndpoint metadata))
              (declaredSkill metadata)) (defaultCandidates base)
          warnings := (effectiveOrigin idna name metadata scheme).1 ++
            (normalizePath idna (declaredSkill metadata)).1 } = plan :=
  build_plan_ok_http horigin (expected_origin_http hscheme horigin)

/-- Whenever the function returns, it returns a plan. -/
theorem build_plan_ok {scheme name : JSString} {metadata : Properties JSString}
    {plan : SkillCandidatePlan} (hscheme : IsDefaultScheme scheme)
    (h : buildSkillCandidatePlan idna name metadata scheme = .ok plan) :
    IsPlanFor idna (expectedOrigin idna scheme name (declaredEndpoint metadata)) metadata plan ∧
      Plannable idna (expectedOrigin idna scheme name (declaredEndpoint metadata)) metadata := by
  have hvalid := origin_valid_of_build h
  obtain ⟨base, horigin⟩ := Option.isSome_iff_exists.mp hvalid
  obtain ⟨hresolves, rfl⟩ := (build_plan_ok_iff hscheme horigin).mp h
  have hnodup := default_candidates_nodup base
  refine ⟨⟨planned_candidates_nodup hnodup, ⟨defaultCandidates base, ?_, rfl, ?_⟩, ?_⟩,
    ⟨hvalid, hresolves⟩⟩
  · exact default_candidates_resolve horigin (expected_origin_http hscheme horigin)
  · exact fun candidate hmem => count_default hnodup hmem
  · rw [List.length_append, (effective_origin_eq scheme name metadata).2,
      (normalize_path_eq (declaredSkill metadata)).2]

/-- Planning returns a plan exactly when the effective origin is a valid URL and resolves the
relative skill path, if there is one. -/
theorem plan_total_iff (idna : Idna) (name : JSString) (metadata : Properties JSString) :
    (∃ plan, buildSkillCandidatePlan idna name metadata (text "https") = .ok plan ∧
        IsPlanFor idna (expectedOrigin idna (text "https") name (declaredEndpoint metadata))
          metadata plan) ↔
      Plannable idna (expectedOrigin idna (text "https") name (declaredEndpoint metadata))
        metadata := by
  have hscheme : IsDefaultScheme (text "https") := Or.inr rfl
  constructor
  · rintro ⟨plan, hplan, -⟩
    exact (build_plan_ok hscheme hplan).2
  · rintro ⟨hvalid, hresolves⟩
    obtain ⟨base, horigin⟩ := Option.isSome_iff_exists.mp hvalid
    have hplan := (build_plan_ok_iff hscheme horigin).mpr ⟨hresolves, rfl⟩
    exact ⟨_, hplan, (build_plan_ok hscheme hplan).1⟩

/-- The skill path of two slashes is accepted metadata, and planning throws on it. -/
theorem plan_throws_on_slashes :
    normalizeHandshakeName (text "example") = .ok (text "example") ∧
      ∃ identity, validateAgentIdentityMetadata (.object
          [(text "version", .number (.finite 1)), (text "skill", .string (text "//"))]) =
          { errors := [], identity := some identity } ∧
        buildSkillCandidatePlan .ascii (text "example") identity.strings (text "https") =
          .error ⟨text "Invalid URL"⟩ := by
  have hname : IsHandshakeName (text "example") := ⟨by decide, by decide⟩
  refine ⟨hname.normalize, ⟨none, [(text "skill", text "//")], [], [], none⟩, rfl, rfl⟩

/-- A rooted reference is parsed against the URL of the origin. -/
theorem new_url_rooted {origin : JSString} {base : Url} (horigin : newUrl idna origin = some base)
    (rest : JSString) :
    newUrlWithBase idna (unit '/' :: rest) origin =
      parseUrl idna (some base) ('/' :: toScalars rest) := by
  have hscalars : toScalars (unit '/' :: rest) = '/' :: toScalars rest :=
    @to_scalars_text_append "/" (by decide) rest
  rw [newUrlWithBase, horigin, ← hscalars]

/-- A reference without a second slash resolves against every valid origin; one with a second slash
names an authority of its own. -/
theorem local_reference_resolves {origin reference rest : JSString} {base : Url}
    (horigin : newUrl idna origin = some base) (hbase : base.IsHttp)
    (hreference : reference = unit '/' :: rest)
    (hslash : (stripTail (toScalars rest)).head?.any (isSlash true) = false) :
    (newUrlWithBase idna reference origin).isSome := by
  rw [hreference, new_url_rooted horigin, parse_local hbase hslash]
  rfl

/-! ## The URLs of a plan -/

/-- The URL of the absolute skill, of the relative skill path, or of a default path. -/
def IsPlannedUrl (idna : Idna) (origin : JSString) (skill : Option JSString) (url : JSString) :
    Prop :=
  (∃ parsed, absoluteSkill idna skill = some parsed ∧ url = parsed.href) ∨
    ∃ path parsed, (relativeReference skill = some path ∨ path ∈ defaultSkillPaths) ∧
      newUrlWithBase idna path origin = some parsed ∧ url = parsed.href

theorem planned_url {origin : JSString} {metadata : Properties JSString}
    {plan : SkillCandidatePlan} (h : IsPlanFor idna origin metadata plan) {candidate : Candidate}
    (hmem : candidate ∈ plan.candidates) :
    IsPlannedUrl idna origin (declaredSkill metadata) candidate.url := by
  have hresolved {path : JSString} (h : resolvedCandidate idna origin path = some candidate) :
      ∃ parsed, newUrlWithBase idna path origin = some parsed ∧ candidate.url = parsed.href := by
    obtain ⟨parsed, hparsed, rfl⟩ := Option.map_eq_some_iff.mp h
    exact ⟨parsed, hparsed, rfl⟩
  obtain ⟨defaults, hdefaults, hcandidates, -⟩ := h.candidates
  rw [hcandidates, plannedCandidates, List.mem_append, Option.mem_toList, List.mem_filter] at hmem
  rcases hmem with hdeclared | ⟨hdefault, -⟩
  · rw [declaredCandidate, Option.or_eq_some_iff] at hdeclared
    rcases hdeclared with habsolute | ⟨-, hrelative⟩
    · obtain ⟨parsed, hparsed, rfl⟩ := Option.map_eq_some_iff.mp habsolute
      exact Or.inl ⟨parsed, hparsed, rfl⟩
    · obtain ⟨reference, hreference, hcandidate⟩ := Option.bind_eq_some_iff.mp hrelative
      obtain ⟨parsed, hparsed, hurl⟩ := hresolved hcandidate
      exact Or.inr ⟨reference, parsed, Or.inl hreference, hparsed, hurl⟩
  · obtain ⟨path, hpath, hcandidate⟩ := exists_left_of_mem hdefaults hdefault
    obtain ⟨parsed, hparsed, hurl⟩ := hresolved hcandidate
    exact Or.inr ⟨path, parsed, Or.inr hpath, hparsed, hurl⟩

/-- There are three default paths and at most one declared candidate. -/
theorem plan_length_le {origin : JSString} {metadata : Properties JSString}
    {plan : SkillCandidatePlan} (h : IsPlanFor idna origin metadata plan) :
    plan.candidates.length ≤ 4 := by
  obtain ⟨defaults, hdefaults, hcandidates, -⟩ := h.candidates
  have hlength : defaults.length = 3 := hdefaults.length_eq.symm
  have hfilter := List.length_filter_le (fun candidate : Candidate =>
    candidate.url ∉ (declaredCandidate idna origin (declaredSkill metadata)).toList.map
      Candidate.url) defaults
  rw [hcandidates, plannedCandidates, List.length_append, Option.length_toList]
  split <;> omega

/-- A relative reference starts with a slash. -/
theorem relative_reference_rooted {skill : Option JSString} {reference : JSString}
    (h : relativeReference skill = some reference) : ∃ rest, reference = unit '/' :: rest := by
  obtain ⟨skill, -, hreference⟩ := Option.map_eq_some_iff.mp h
  split at hreference
  · rename_i hslash
    obtain ⟨rest, hrest⟩ := List.isPrefixOf_iff_prefix.mp hslash
    exact ⟨rest, hreference.symm.trans hrest.symm⟩
  · exact ⟨trim skill, hreference.symm⟩

/-- The URLs of a plan are of the schemes http and https. -/
theorem planned_url_http {origin url : JSString} {skill : Option JSString} {base : Url}
    (horigin : newUrl idna origin = some base) (hbase : base.IsHttp)
    (h : IsPlannedUrl idna origin skill url) :
    startsWith url (text "http://") ∨ startsWith url (text "https://") := by
  rcases h with ⟨parsed, habsolute, rfl⟩ | ⟨path, parsed, hpath, hparsed, rfl⟩
  · obtain ⟨hurl, hhttp⟩ := Option.filter_eq_some_iff.mp habsolute
    obtain ⟨skill, -, hurl⟩ := Option.bind_eq_some_iff.mp hurl
    exact href_http (new_url_http hurl hhttp)
  · have hrooted : ∃ rest, path = unit '/' :: rest := by
      rcases hpath with hreference | hdefault
      · exact relative_reference_rooted hreference
      · exact relative_reference_rooted (@default_is_reference idna path hdefault).1
    obtain ⟨rest, rfl⟩ := hrooted
    rw [new_url_rooted horigin] at hparsed
    exact href_http (parse_rooted_some hbase hparsed).1

end AgentResolver
