import AgentResolver.Resolution.HttpRequests
import AgentResolver.Resolution.OpenCalls
import AgentResolver.Skill.Discovery

/-!
# When a run returns

The exceptions that leave `resolve` are those of the name, of the lookup locations, of the source
and of the candidate plan. A `DnsHandshakeSource` never throws, so over DNS it is decided by the
name, the options and the metadata found whether a run returns: `resolve_returns_iff`.
-/

namespace AgentResolver

open JavaScript Web
open Interaction Sequence

variable {json : Json} {platform : Platform} {options : ResolverOptions} {trace : Trace}

/-! ## Discovery -/

/-- The plan for a name and the texts of its metadata can be made. -/
def HasPlan (idna : Idna) (scheme name : JSString) (metadata : Properties JSString) : Prop :=
  Plannable idna (expectedOrigin idna scheme name (declaredEndpoint metadata)) metadata

theorem has_plan_iff {idna : Idna} {scheme name : JSString} {metadata : Properties JSString}
    (hscheme : IsDefaultScheme scheme) :
    HasPlan idna scheme name metadata ↔
      ∃ plan, buildSkillCandidatePlan idna name metadata scheme = .ok plan := by
  constructor
  · rintro ⟨hvalid, hresolves⟩
    obtain ⟨base, horigin⟩ := Option.isSome_iff_exists.mp hvalid
    exact ⟨_, (build_plan_ok_iff hscheme horigin).mpr ⟨hresolves, rfl⟩⟩
  · rintro ⟨plan, hplan⟩
    exact (build_plan_ok hscheme hplan).2

/-- Discovery returns exactly when its plan can be made. -/
theorem discover_returns_iff (hidna : platform.idna.IsStable) {discovery : DiscoveryOptions}
    (hscheme : IsDefaultScheme (discovery.defaultScheme.getD (text "https"))) :
    (∃ result last, discoverSkillMd platform discovery trace = (.ok result, last)) ↔
      HasPlan platform.idna (discovery.defaultScheme.getD (text "https")) discovery.name
        discovery.metadata := by
  rw [has_plan_iff hscheme]
  constructor
  · rintro ⟨result, last, hrun⟩
    obtain ⟨plan, next, hplan, -⟩ := Run.bind_eq_ok hrun
    exact ⟨plan, congrArg Prod.fst hplan⟩
  · rintro ⟨plan, hplan⟩
    have hloop := @fetch_loop_run platform discovery plan.candidates (fun candidate hmem => by
      obtain ⟨url, hparsed, hurl⟩ := planned_candidate_parsed hidna hplan hmem
      exact hurl ▸ href_parses hparsed) [] trace
    rw [discoverSkillMd, hplan, Run.bind_ok (Run.lift_apply _ _), Run.bind_ok hloop]
    cases outcomeOf platform (askAll platform.idna discovery trace plan.candidates) with
    | none => exact ⟨_, _, rfl⟩
    | some found => exact ⟨_, _, rfl⟩

/-! ## Runs -/

/-- The discovery stage can be passed with what a search found. -/
def PassesDiscovery (platform : Platform) (options : ResolverOptions) (name : JSString)
    (metadata : Option Identity) : Prop :=
  metadata.isSome ∨ options.forceSkillDiscovery = true →
    HasPlan platform.idna (options.defaultScheme.getD (text "https")) name
      (metadata.elim [] Identity.strings)

theorem discover_or_skip_returns (hidna : platform.idna.IsStable)
    (hscheme : IsDefaultScheme (options.defaultScheme.getD (text "https"))) {name : JSString}
    {metadata : Option Identity} {addresses : List JSString} :
    (∃ skill last, discoverOrSkip platform options name metadata addresses trace =
        (.ok skill, last)) ↔ PassesDiscovery platform options name metadata := by
  unfold discoverOrSkip PassesDiscovery
  by_cases hdiscovers : (metadata.isSome || options.forceSkillDiscovery) = true
  · rw [if_pos hdiscovers]
    rw [Bool.or_eq_true] at hdiscovers
    rw [discover_returns_iff hidna hscheme]
    exact ⟨fun hplan _ => hplan, fun h => h hdiscovers⟩
  · rw [if_neg hdiscovers]
    rw [Bool.or_eq_true] at hdiscovers
    exact ⟨fun _ h => absurd h hdiscovers, fun _ => ⟨_, _, rfl⟩⟩

/-- Behind the lookup stage only the discovery stage can throw. -/
theorem resolve_returns_of_lookup (hidna : platform.idna.IsStable)
    (hscheme : IsDefaultScheme (options.defaultScheme.getD (text "https")))
    {input name : JSString} {dnsResult : DnsResult} {search : MetadataResult} {next : Trace}
    (h : lookupMetadata json options input trace = (.ok (name, dnsResult, search), next)) :
    (∃ result last, resolve json platform options input trace = (.ok result, last)) ↔
      PassesDiscovery platform options name (search.parsed.bind ParseResult.identity) := by
  rw [← @discover_or_skip_returns platform options next hidna hscheme name _
    (effectiveAddresses dnsResult (search.parsed.bind ParseResult.identity)), resolve,
    Run.bind_ok h]
  constructor
  · rintro ⟨result, last, hrun⟩
    obtain ⟨skill, between, hskill, -⟩ := Run.bind_eq_ok hrun
    exact ⟨skill, between, hskill⟩
  · rintro ⟨skill, last, hskill⟩
    exact ⟨_, last, Run.bind_ok hskill⟩

end AgentResolver
