import AgentResolver.Interaction.Among
import AgentResolver.Resolution.AnySource

/-!
# What the options of a resolver change

Two options of `AgentIdentityResolver`, over any source. Lookup locations behind the others change
nothing for a name whose metadata is found without them (`more_locations_same_run`), and forced
discovery changes only what the result says of SKILL.md (`forced_discovery_frame`).
-/

namespace AgentResolver

open JavaScript Web
open Interaction

variable {json : Json} {platform : Platform} {options : ResolverOptions} {source : Source}
  {name : JSString} {dnsResult : DnsResult} {trace last : Trace}

/-! ## Lookup locations -/

/-- The options with lookup locations behind those of before. -/
def ResolverOptions.withMoreLocations (options : ResolverOptions) (more : List LookupLocation) :
    ResolverOptions :=
  { options with
    lookupLocations := some (options.lookupLocations.getD defaultLookupLocations ++ more) }

/-- The names of the first locations come first. -/
theorem collect_lookup_names_append {seen : List JSString} {first more : List LookupLocation}
    {all : List Lookup} (h : collectLookupNames name seen (first ++ more) = .ok all) :
    ∃ lookups rest, collectLookupNames name seen first = .ok lookups ∧ all = lookups ++ rest := by
  induction first generalizing seen all with
  | nil => exact ⟨[], all, rfl, rfl⟩
  | cons location first ih =>
      rw [List.cons_append, collectLookupNames] at h
      rw [collectLookupNames]
      obtain ⟨trimmed, htrimmed, h⟩ := bind_returns h
      obtain ⟨valid, hvalid, h⟩ := bind_returns h
      rw [htrimmed]
      simp only [bind, Except.bind, hvalid]
      split at h
      · rename_i hseen
        rw [if_pos hseen]
        exact ih h
      · rename_i hfresh
        rw [if_neg hfresh]
        obtain ⟨others, hothers, hreturn⟩ := bind_returns h
        obtain ⟨lookups, rest, hlookups, rfl⟩ := ih hothers
        cases hreturn
        rw [hlookups]
        exact ⟨_, rest, rfl, rfl⟩

/-- A search that has found metadata goes no further. -/
theorem find_loop_append {lookups : List Lookup} {attempts : List Attempt}
    {result : MetadataResult}
    (h : findLoop json source name dnsResult lookups attempts trace = (.ok result, last))
    (hfound : result.parsed.isSome) (rest : List Lookup) :
    findLoop json source name dnsResult (lookups ++ rest) attempts trace = (.ok result, last) := by
  induction lookups generalizing attempts trace with
  | nil =>
      cases h
      cases hfound
  | cons lookup lookups ih =>
      rw [findLoop] at h
      rw [List.cons_append, findLoop]
      obtain ⟨outcome, next, hrecords, hnext⟩ := Run.bind_eq_ok h
      rw [Run.bind_ok hrecords]
      cases outcome with
      | error attempt => exact ih hnext
      | ok records =>
          dsimp only at hnext ⊢
          split at hnext
          · rename_i hparsed
            rw [if_pos hparsed]
            exact hnext
          · rename_i hparsed
            rw [if_neg hparsed]
            exact ih hnext

theorem lookup_metadata_append {input normalizedName : JSString} {search : MetadataResult}
    {more : List LookupLocation} {all : List Lookup}
    (h : lookupMetadata json options input trace = (.ok (normalizedName, dnsResult, search), last))
    (hfound : search.parsed.isSome)
    (hall : buildLookupNames normalizedName (options.withMoreLocations more).lookupLocations =
      .ok all) :
    lookupMetadata json (options.withMoreLocations more) input trace =
      (.ok (normalizedName, dnsResult, search), last) := by
  obtain ⟨hnormalize, lookups, second, hlookups, hname, hloop⟩ := lookup_metadata_returns h
  obtain ⟨same, hsame, hcollect⟩ := bind_returns hall
  obtain ⟨others, rest, hothers, rfl⟩ := collect_lookup_names_append hcollect
  obtain rfl : others = lookups := by
    rw [buildLookupNames, hsame] at hlookups
    exact Except.ok.inj (hothers.symm.trans hlookups)
  have hmore : findMetadata json options.source normalizedName dnsResult
      (options.withMoreLocations more).lookupLocations second = (.ok search, last) := by
    rw [findMetadata, hall]
    exact find_loop_append hloop hfound rest
  rw [lookupMetadata, hnormalize]
  exact (Run.bind_ok hname).trans (Run.bind_ok hmore)

/-- A name whose metadata is found has the same run when there are more lookup locations behind the
others: the same queries, requests and result. The new locations must only be usable, or the
resolver throws. -/
theorem more_locations_same_run (json : Json) (platform : Platform) {input : JSString}
    {result : ResolveResult} {more : List LookupLocation} {all : List Lookup}
    (h : resolve json platform options input trace = (.ok result, last))
    (hfound : result.status = .found)
    (hall : buildLookupNames result.name (options.withMoreLocations more).lookupLocations =
      .ok all) :
    resolve json platform (options.withMoreLocations more) input trace = (.ok result, last) := by
  obtain ⟨⟨normalizedName, dnsResult, search⟩, next, hlookup, hrest⟩ := Run.bind_eq_ok h
  obtain ⟨skill, between, hskill, hbuild⟩ := Run.bind_eq_ok hrest
  cases hbuild
  have hparsed : search.parsed.isSome := by
    cases hparsed : search.parsed with
    | some parsed => rfl
    | none =>
        rw [buildResult, hparsed] at hfound
        cases hfound
  rw [resolve, Run.bind_ok (lookup_metadata_append hlookup hparsed hall)]
  exact hrest

/-! ## Forced discovery -/

/-- What the warnings say of a SKILL.md result. -/
def skillWarnings (skill : SkillResult) : List JSString :=
  skill.warnings.map (text "SKILL.md warning: " ++ ·) ++
    (if skill.checked && !skill.found then [text "SKILL.md was not found."] else [])

/-- A result with discovery differs from a skipped one only in the SKILL.md result and its
warnings. -/
theorem build_result_skill (normalizedName : JSString) (dnsResult : DnsResult)
    (search : MetadataResult) (skill : SkillResult) (reason : JSString) :
    buildResult normalizedName dnsResult search skill =
      let skipped := buildResult normalizedName dnsResult search (skippedSkill reason)
      { skipped with
        skill := skill
        warnings := skipped.warnings ++ skillWarnings skill } := by
  simp [buildResult, collectWarnings, skillWarnings, skippedSkill]

section

variable {input normalizedName : JSString} {search : MetadataResult}

/-- The metadata of a result is that of the search. -/
theorem returned_result {result : ResolveResult}
    (hlookup : lookupMetadata json options input trace =
      (.ok (normalizedName, dnsResult, search), last))
    (h : (resolve json platform options input trace).1 = .ok result) :
    ∃ skill, result = buildResult normalizedName dnsResult search skill := by
  obtain ⟨name', dnsResult', search', skill, next, hlookup', hresult⟩ :=
    @resolve_returns json platform options input result trace
      (resolve json platform options input trace).2 (Prod.ext h rfl)
  rw [hlookup] at hlookup'
  cases hlookup'
  exact ⟨skill, hresult⟩

/-- With metadata the discovery does not depend on the option. -/
theorem forced_of_metadata
    (hlookup : lookupMetadata json options input trace =
      (.ok (normalizedName, dnsResult, search), last))
    (hmetadata : (search.parsed.bind ParseResult.identity).isSome) :
    resolve json platform { options with forceSkillDiscovery := true } input trace =
      resolve json platform { options with forceSkillDiscovery := false } input trace := by
  have hplain : lookupMetadata json { options with forceSkillDiscovery := false } input trace =
      (.ok (normalizedName, dnsResult, search), last) := hlookup
  have hforced : lookupMetadata json { options with forceSkillDiscovery := true } input trace =
      (.ok (normalizedName, dnsResult, search), last) := hlookup
  rw [resolve, resolve, Run.bind_ok hplain, Run.bind_ok hforced]
  dsimp only
  rw [discoverOrSkip, discoverOrSkip, hmetadata]
  rfl

theorem plain_of_no_metadata
    (hlookup : lookupMetadata json options input trace =
      (.ok (normalizedName, dnsResult, search), last))
    (hmetadata : search.parsed.bind ParseResult.identity = none) :
    resolve json platform { options with forceSkillDiscovery := false } input trace =
      (.ok (buildResult normalizedName dnsResult search
        (skippedSkill (text "skipped_no_metadata"))), last) := by
  have hplain : lookupMetadata json { options with forceSkillDiscovery := false } input trace =
      (.ok (normalizedName, dnsResult, search), last) := hlookup
  rw [resolve, Run.bind_ok hplain]
  dsimp only
  rw [hmetadata]
  rfl

end

/-- Forcing the discovery changes nothing when metadata is found or the run throws. Otherwise all
that is done before is the same, only requests are added, and only what the result says of SKILL.md
changes. -/
theorem forced_discovery_frame (json : Json) (platform : Platform) (options : ResolverOptions)
    (input : JSString) (trace : Trace) :
    let plain := resolve json platform { options with forceSkillDiscovery := false } input trace
    let forced := resolve json platform { options with forceSkillDiscovery := true } input trace
    (∀ error, plain.1 = .error error → forced = plain) ∧
    ∀ result, plain.1 = .ok result →
      (result.status = .found → forced = plain) ∧
      (result.status = .notFound →
        ∃ requests, forced.2 = plain.2 ++ requests ∧
          (∀ event ∈ requests, (requestedUrl event).isSome) ∧
          ∀ other, forced.1 = .ok other → other =
            { result with
              skill := other.skill
              warnings := result.warnings ++ skillWarnings other.skill }) := by
  dsimp only
  cases hlookup : lookupMetadata json options input trace with
  | mk outcome next =>
      have hplain : lookupMetadata json { options with forceSkillDiscovery := false } input trace =
          (outcome, next) := hlookup
      have hforced : lookupMetadata json { options with forceSkillDiscovery := true } input trace =
          (outcome, next) := hlookup
      cases outcome with
      | error error =>
          rw [resolve, resolve, Run.bind_error hplain, Run.bind_error hforced]
          refine ⟨fun _ _ => rfl, fun result h => ?_⟩
          cases h
      | ok found =>
          obtain ⟨normalizedName, dnsResult, search⟩ := found
          cases hmetadata : search.parsed.bind ParseResult.identity with
          | some identity =>
              have hsame := @forced_of_metadata json platform options dnsResult trace next input
                normalizedName search hlookup (by rw [hmetadata]; rfl)
              refine ⟨fun _ _ => hsame, fun result h => ⟨fun _ => hsame, fun hnone => ?_⟩⟩
              obtain ⟨skill, rfl⟩ := returned_result hplain h
              rw [buildResult, hmetadata] at hnone
              cases hnone
          | none =>
              obtain ⟨requests, hrequests, hall⟩ := resolve_events platform hforced
              rw [plain_of_no_metadata hlookup hmetadata]
              refine ⟨fun error h => (by cases h), fun result h => ?_⟩
              cases h
              refine ⟨fun hfound => ?_,
                fun _ => ⟨requests, hrequests, hall, fun other hother => ?_⟩⟩
              · rw [buildResult, hmetadata] at hfound
                cases hfound
              · obtain ⟨skill, rfl⟩ := returned_result hforced hother
                exact build_result_skill _ _ _ _ _

theorem more_locations_same_run_example :
    ∃ result last,
      resolve .rejecting .ascii
          ((optionsOver (txtOnlyResolver (text "_agent.example")
            [.single (text "hns-agent=v1;id=a")])).withMoreLocations [.string (text "_extra")])
          (text "example") [] = (.ok result, last) ∧
        result.status = .found := by
  obtain ⟨result, last, hrun, hname, hfound⟩ : ∃ result last,
      resolve .rejecting .ascii
          (optionsOver (txtOnlyResolver (text "_agent.example")
            [.single (text "hns-agent=v1;id=a")])) (text "example") [] = (.ok result, last) ∧
        result.name = text "example" ∧ result.status = .found := ⟨_, _, rfl, rfl, rfl⟩
  have hall : buildLookupNames result.name (some (defaultLookupLocations ++
      [.string (text "_extra")])) =
        .ok [⟨text "@", text "example"⟩, ⟨text "_agent", text "_agent.example"⟩,
          ⟨text "_agent-identity", text "_agent-identity.example"⟩,
          ⟨text "_extra", text "_extra.example"⟩] := by
    rw [hname]
    rfl
  exact ⟨result, last, more_locations_same_run .rejecting .ascii hrun hfound hall, hfound⟩

end AgentResolver
