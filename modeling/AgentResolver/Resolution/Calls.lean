import AgentResolver.Resolution.AnySource
import AgentResolver.Resolution.OpenCalls
import Mathlib.Data.List.ReduceOption

/-!
# The calls of a run

A call of `resolve` never asks the outside world for the same thing twice, whatever its source and
its fetcher do and also if it throws or is never answered: the name is looked up once, the TXT
records of each lookup name at most once, and each of at most four URLs is requested at most once
(`calls_bounded`).
-/

namespace AgentResolver

open JavaScript Web
open Interaction Sequence

variable {json : Json} {platform : Platform} {options : ResolverOptions}

/-! ## The lookup stage -/

/-- The name that an event asks DNS for. -/
def askedName : Event → Option JSString
  | .resolveName name => some name
  | .resolveTxt name => some name
  | _ => none

theorem asked_of_requested {event : Event} (h : (requestedUrl event).isSome) :
    askedName event = none := by
  cases event with
  | resolveName name => cases h
  | resolveTxt name => cases h
  | fetch url options => rfl
  | requestSkill url options => rfl

/-- The number of lookup names is at most that of the locations. -/
theorem collect_lookup_names_length {name : JSString} {seen : List JSString}
    {locations : List LookupLocation} {lookups : List Lookup}
    (h : collectLookupNames name seen locations = .ok lookups) :
    lookups.length ≤ locations.length := by
  induction locations generalizing seen lookups with
  | nil =>
      cases h
      exact Nat.le_refl _
  | cons location rest ih =>
      rw [collectLookupNames] at h
      obtain ⟨trimmed, -, h⟩ := bind_returns h
      obtain ⟨valid, -, h⟩ := bind_returns h
      split at h
      · exact Nat.le_succ_of_le (ih h)
      · obtain ⟨others, hothers, hreturn⟩ := bind_returns h
        cases hreturn
        exact Nat.succ_le_succ (ih hothers)

/-- The direct TXT queries are for other names than the name itself, each once. -/
theorem search_calls_spec {name : JSString} (hname : IsHandshakeName name) :
    ((searchCalls options name).filterMap askedName).Nodup ∧
      name ∉ (searchCalls options name).filterMap askedName ∧
      (searchCalls options name).length ≤
        (options.lookupLocations.getD defaultLookupLocations).length := by
  unfold searchCalls
  cases hlookups : buildLookupNames name options.lookupLocations with
  | error error => exact ⟨List.nodup_nil, List.not_mem_nil, Nat.zero_le _⟩
  | ok lookups =>
      have hdistinct := (build_lookup_names_spec hname hlookups).2
      rw [buildLookupNames, hname.normalize] at hlookups
      have hnames : (txtQueries name lookups).filterMap askedName =
          (lookups.filter fun lookup => lookup.queryName ≠ name).map Lookup.queryName := by
        rw [txtQueries, List.filterMap_map]
        exact congrFun (@List.filterMap_eq_map _ _ Lookup.queryName) _
      dsimp only
      rw [hnames]
      refine ⟨hdistinct.sublist (List.filter_sublist.map _), fun hmem => ?_, ?_⟩
      · obtain ⟨lookup, hlookup, hsame⟩ := List.mem_map.mp hmem
        exact absurd hsame (by simpa using (List.mem_filter.mp hlookup).2)
      · refine le_trans ?_ (collect_lookup_names_length hlookups)
        exact (List.length_map _).trans_le (List.length_filter_le _ _)

/-- At most one call is for the name itself. -/
theorem name_events_spec (source : Source) (name : JSString) :
    (nameEvents source name).length ≤ 1 ∧
      ∀ event ∈ nameEvents source name, askedName event = some name := by
  unfold nameEvents
  split
  · exact ⟨Nat.le_refl 1, fun event hevent => by rw [List.mem_singleton.mp hevent]; rfl⟩
  · exact ⟨Nat.le_refl 1, fun event hevent => by rw [List.mem_singleton.mp hevent]; rfl⟩
  · exact ⟨Nat.zero_le 1, fun event hevent => absurd hevent List.not_mem_nil⟩

/-- The lookup stage asks for no name twice. -/
theorem lookup_calls_names {name : JSString} (hname : IsHandshakeName name) :
    ((lookupCalls options name).filterMap askedName).Nodup := by
  obtain ⟨hnodup, hother, -⟩ := @search_calls_spec options name hname
  obtain ⟨hlength, hnames⟩ := name_events_spec options.source name
  rw [lookupCalls, List.filterMap_append]
  -- `resolveName` is at most one event, and the direct queries are for other names.
  generalize nameEvents options.source name = first at hlength hnames
  cases first with
  | nil => exact hnodup
  | cons event rest =>
      obtain rfl : rest = [] :=
        List.eq_nil_of_length_eq_zero (Nat.le_zero.mp (Nat.le_of_succ_le_succ hlength))
      rw [List.filterMap_cons_some (hnames event List.mem_cons_self)]
      exact List.nodup_cons.mpr ⟨hother, hnodup⟩

/-! ## The discovery stage -/

/-- The URLs of a plan are distinct, and there are at most four. -/
theorem plan_urls {idna : Idna} {scheme name : JSString} {metadata : Properties JSString}
    {plan : SkillCandidatePlan}
    (h : buildSkillCandidatePlan idna name metadata scheme = .ok plan) :
    (plan.candidates.map Candidate.url).Nodup ∧ plan.candidates.length ≤ 4 := by
  rw [build_plan_eq] at h
  cases hfound : (declaredSkill metadata :: defaultSkillPaths.map some).mapM (pathCandidate idna
      (expectedOrigin idna scheme name (declaredEndpoint metadata))) with
  | error error =>
      rw [hfound] at h
      cases h
  | ok found =>
      rw [hfound] at h
      cases h
      refine ⟨nodup_distinct_by _ _ _, ?_⟩
      have hlength : found.length = 4 := (map_m_ok.mp hfound).length_eq.symm
      exact (distinct_by_sublist _ _ _).length_le.trans
        ((List.reduceOption_length_le found).trans_eq hlength)

/-- A discovery requests each URL of its plan at most once. -/
theorem discovery_calls (platform : Platform) (discovery : DiscoveryOptions) (trace : Trace) :
    ∃ added, (discoverSkillMd platform discovery trace).2 = trace ++ added ∧
      (added.filterMap requestedUrl).Nodup ∧ added.length ≤ 4 ∧
      ∀ event ∈ added, (requestedUrl event).isSome := by
  obtain ⟨added, asked, hrun, hall, hasked⟩ := discover_skill_md_events platform discovery trace
  have hsmall : (asked.map Candidate.url).Nodup ∧ asked.length ≤ 4 := by
    rcases hasked with rfl | ⟨plan, hplan, hsub⟩
    · exact ⟨List.nodup_nil, Nat.zero_le _⟩
    · obtain ⟨hnodup, hlength⟩ := plan_urls hplan
      exact ⟨hnodup.sublist (hsub.map _), hsub.length_le.trans hlength⟩
  refine ⟨added, hrun, ?_, hall.length_eq ▸ hsmall.2, fun event hevent => ?_⟩
  · rw [requested_urls hall]
    exact hsmall.1
  · obtain ⟨candidate, -, hrequest⟩ := candidate_of_request hall hevent
    rw [hrequest.url]
    rfl

theorem discover_or_skip_calls (name : JSString) (metadata : Option Identity)
    (addresses : List JSString) (trace : Trace) :
    ∃ added, (discoverOrSkip platform options name metadata addresses trace).2 = trace ++ added ∧
      (added.filterMap requestedUrl).Nodup ∧ added.length ≤ 4 ∧
      ∀ event ∈ added, (requestedUrl event).isSome := by
  unfold discoverOrSkip
  split
  · exact discovery_calls _ _ _
  · exact ⟨[], (List.append_nil _).symm, List.nodup_nil, Nat.zero_le _,
      fun event hevent => absurd hevent List.not_mem_nil⟩

/-! ## Whole runs -/

/-- What may be asked of the outside world for a name: at most one call for the name itself, then at
most one TXT query for each lookup location, then at most four requests. No name and no URL is asked
for twice. -/
structure AreCallsFor (options : ResolverOptions) (name : JSString) (calls : Trace) : Prop where
  parts : ∃ first queries requests, calls = first ++ queries ++ requests ∧
    (first.Sublist (nameEvents options.source name) ∧ first.length ≤ 1) ∧
    (queries.Sublist (searchCalls options name) ∧
      queries.length ≤ (options.lookupLocations.getD defaultLookupLocations).length) ∧
    requests.length ≤ 4 ∧ ∀ event ∈ requests, (requestedUrl event).isSome
  names : (calls.filterMap askedName).Nodup
  urls : (calls.filterMap requestedUrl).Nodup

/-- The lookup stage, with requests behind it. -/
theorem are_calls_for {name : JSString} (hname : IsHandshakeName name) {before requests : Trace}
    (hbefore : before.Sublist (lookupCalls options name))
    (hurls : (requests.filterMap requestedUrl).Nodup) (hfour : requests.length ≤ 4)
    (hrequests : ∀ event ∈ requests, (requestedUrl event).isSome) :
    AreCallsFor options name (before ++ requests) := by
  refine ⟨?_, ?_, ?_⟩
  · obtain ⟨first, queries, rfl, hfirst, hqueries⟩ := List.sublist_append_iff.mp hbefore
    exact ⟨first, queries, requests, rfl,
      ⟨hfirst, hfirst.length_le.trans (name_events_spec _ _).1⟩,
      ⟨hqueries, hqueries.length_le.trans (search_calls_spec hname).2.2⟩, hfour, hrequests⟩
  · have hnone : requests.filterMap askedName = [] :=
      List.filterMap_eq_nil_iff.mpr fun event hevent => asked_of_requested (hrequests event hevent)
    rw [List.filterMap_append, hnone, List.append_nil]
    exact (lookup_calls_names hname).sublist (hbefore.filterMap askedName)
  · have hnone : before.filterMap requestedUrl = [] :=
      List.filterMap_eq_nil_iff.mpr fun event hevent => lookup_calls_url (hbefore.subset hevent)
    rw [List.filterMap_append, hnone]
    exact hurls

/-- Fewer calls are as well allowed. -/
theorem AreCallsFor.sublist {name : JSString} {calls fewer : Trace}
    (h : AreCallsFor options name calls) (hsub : fewer.Sublist calls) :
    AreCallsFor options name fewer := by
  refine ⟨?_, h.names.sublist (hsub.filterMap askedName),
    h.urls.sublist (hsub.filterMap requestedUrl)⟩
  obtain ⟨first, queries, requests, rfl, ⟨hfirst, hone⟩, ⟨hqueries, hmany⟩, hfour, hrequests⟩ :=
    h.parts
  obtain ⟨before, requests', rfl, hbefore, hrequests'⟩ := List.sublist_append_iff.mp hsub
  obtain ⟨first', queries', rfl, hfirst', hqueries'⟩ := List.sublist_append_iff.mp hbefore
  exact ⟨first', queries', requests', rfl, ⟨hfirst'.trans hfirst, hfirst'.length_le.trans hone⟩,
    ⟨hqueries'.trans hqueries, hqueries'.length_le.trans hmany⟩, hrequests'.length_le.trans hfour,
    fun event hevent => hrequests event (hrequests'.subset hevent)⟩

/-- The calls of a run of `resolve` for a name. -/
theorem resolve_calls {input name : JSString} (hname : normalizeHandshakeName input = .ok name)
    (trace : Trace) :
    ∃ events, (resolve json platform options input trace).2 = trace ++ events ∧
      AreCallsFor options name events := by
  have hvalid := normalize_valid hname
  obtain ⟨before, hbefore, hsub⟩ := @lookup_metadata_among json options input name hname trace
  cases hlookup : lookupMetadata json options input trace with
  | mk outcome next =>
      rw [hlookup] at hbefore
      obtain rfl : next = trace ++ before := hbefore
      -- A lookup stage that throws ends the run; otherwise the discovery stage adds requests.
      cases outcome with
      | error error =>
          rw [resolve, Run.bind_error hlookup, ← List.append_nil before]
          exact ⟨before ++ [], rfl, are_calls_for hvalid hsub List.nodup_nil (Nat.zero_le _)
            fun event hevent => absurd hevent List.not_mem_nil⟩
      | ok found =>
          obtain ⟨normalizedName, dnsResult, search⟩ := found
          obtain ⟨added, hadded, hdistinct, hfour, hrequests⟩ :=
            @discover_or_skip_calls platform options normalizedName
              (search.parsed.bind ParseResult.identity)
              (effectiveAddresses dnsResult (search.parsed.bind ParseResult.identity))
              (trace ++ before)
          refine ⟨before ++ added, ?_, are_calls_for hvalid hsub hdistinct hfour hrequests⟩
          rw [resolve_trace hlookup, hadded, List.append_assoc]

/-- Without a name nothing is asked for. -/
theorem resolve_calls_nothing {input : JSString} {error : JSError}
    (hname : normalizeHandshakeName input = .error error) (trace : Trace) :
    (resolve json platform options input trace).2 = trace := by
  rw [resolve, Run.bind_error (lookup_metadata_rejected hname trace)]

/-- The call for the name depends only on which methods the source has. -/
theorem name_events_over (source : Source)
    (answers : Interaction.Answers Event Event.Answer JSError) (name : JSString) :
    nameEvents (source.over answers) name = nameEvents source name := by
  obtain ⟨resolveName, resolveTxt, sourceInfo⟩ := source
  cases resolveName with
  | some _ => rfl
  | none =>
      cases resolveTxt with
      | some _ => rfl
      | none => rfl

/-- What a call of `resolve` has asked for, as far as it has come: nothing, if the name is not
accepted, and otherwise each name and each URL at most once, whatever the answers were. -/
theorem calls_bounded (json : Json) (platform : Platform) (options : ResolverOptions)
    {input : JSString} (call : ResolveCall json platform options input) :
    (∀ error, normalizeHandshakeName input = .error error → call.events = []) ∧
      ∀ name, normalizeHandshakeName input = .ok name →
        AreCallsFor options name call.events := by
  obtain ⟨answers, hanswers⟩ := call.exists_answered_by
  have hbegins := hanswers.begins.sublist
  constructor
  · intro error hname
    rw [resolve_calls_nothing hname] at hbegins
    exact List.sublist_nil.mp hbegins
  · intro name hname
    obtain ⟨events, hevents, hcalls⟩ :=
      @resolve_calls json platform (options.over answers) input name hname []
    rw [hevents] at hbegins
    obtain ⟨hparts, hnames, hurls⟩ := hcalls.sublist hbegins
    -- Which calls are allowed depends on the methods of the source, not on their answers.
    rw [show (options.over answers).source = options.source.over answers from rfl,
      name_events_over] at hparts
    exact ⟨hparts, hnames, hurls⟩

end AgentResolver
