import AgentResolver.Interaction.Process
import AgentResolver.Resolver

/-!
# The resolver as a process

`resolve` of `src/resolver.js` once more, as a process that stops at each `await` of a source or a
fetcher. Only here can several resolvers be interleaved. The definitions follow those of
`Resolver` and `Skill.Fetch`; of the options they read which methods there are and never call one.
`run_resolve` says that a process that runs alone is `resolve` over the source and the fetcher that
give the answers.
-/

namespace AgentResolver

open JavaScript Web
open Interaction (Answers Process.call Process.lift Process.attempt Process.run Process.run_bind
  Process.run_attempt Process.run_lift Run.call Run.lift Run.attempt Run.throw)

/-- The value that an event is answered with. -/
def Event.Answer : Event → Type
  | .resolveName _ => NameAnswer
  | .resolveTxt _ => TxtAnswer
  | .fetch _ _ => Response
  | .requestSkill _ _ => Response

/-- A program that stops at the calls of a run. -/
abbrev Async (α : Type) := Interaction.Process Event Event.Answer JSError α

namespace Async

/-- `await source.resolveName(name)`. -/
def awaitName (name : JSString) : Async NameAnswer := Process.call (Event.resolveName name)

/-- `await source.resolveTxt(name)`. -/
def awaitTxt (name : JSString) : Async TxtAnswer := Process.call (Event.resolveTxt name)

def resolveName (source : Source) (name : JSString) : Async DnsResult := do
  if source.resolveName.isSome then
    let answer ← awaitName name
    return normalizeDnsResult answer source
  else
    let txt ← if source.resolveTxt.isSome then awaitTxt name
      else pure ⟨text "no_records", some [], none, none⟩
    return normalizeDnsResult (nameAnswerOfTxt txt) source

def lookupRecords (source : Source) (normalizedName : JSString) (dnsResult : DnsResult)
    (lookup : Lookup) : Async (Except Attempt (List TxtRecord)) := do
  if lookup.queryName = normalizedName then
    let records := dnsResult.records.TXT
    match if records.isEmpty then txtLookupError dnsResult else none with
    | some (code, message) => return .error (lookupErrorAttempt lookup code message (some []))
    | none => return .ok records
  else
    let response ← if source.resolveTxt.isSome then awaitTxt lookup.queryName
      else Process.lift (.error ⟨text "source.resolveTxt is not a function"⟩)
    if isLookupErrorStatus response.status then
      return .error (lookupErrorAttempt lookup response.code response.message none)
    else return .ok (response.records.getD [])

def findLoop (json : Json) (source : Source) (normalizedName : JSString)
    (dnsResult : DnsResult) : List Lookup → List Attempt → Async MetadataResult
  | [], attempts => return ⟨none, none, attempts⟩
  | lookup :: rest, attempts => do
      match ← lookupRecords source normalizedName dnsResult lookup with
      | .error attempt => findLoop json source normalizedName dnsResult rest (attempts ++ [attempt])
      | .ok records =>
          let parsed := parseTxtRecords json records
          let attempts := attempts ++ [metadataAttemptFromParsed lookup parsed records]
          if parsed.status = .found then return ⟨some parsed, some lookup, attempts⟩
          else findLoop json source normalizedName dnsResult rest attempts

def findMetadata (json : Json) (source : Source) (normalizedName : JSString)
    (dnsResult : DnsResult) (lookupLocations : Option (List LookupLocation)) :
    Async MetadataResult := do
  let lookups ← Process.lift (buildLookupNames normalizedName lookupLocations)
  findLoop json source normalizedName dnsResult lookups []

def lookupMetadata (json : Json) (options : ResolverOptions) (name : JSString) :
    Async (JSString × DnsResult × MetadataResult) := do
  let normalizedName ← Process.lift (normalizeHandshakeName name)
  let dnsResult ← resolveName options.source normalizedName
  let metadataResult ←
    findMetadata json options.source normalizedName dnsResult options.lookupLocations
  return (normalizedName, dnsResult, metadataResult)

/-- The call that `fetchCandidate` awaits. -/
def request (path : FetchPath) (url : JSString) (options : FetchOptions) : Async Response :=
  if path.fetcher.isSome then Process.call (Event.fetch url options)
  else Process.call (Event.requestSkill url options)

def fetchCandidate (platform : Platform) (path : FetchPath) (candidate : Candidate)
    (options : FetchOptions) : Async (SkillAttempt × Option JSString) :=
  if options.requiresResolvedAddress && isFalsy options.address && path.fetcher.isNone then
    return (blockedAttempt candidate, none)
  else do
    match ← Process.attempt (request path candidate.url options) with
    | .ok response => return attemptOfResponse platform candidate response
    | .error error =>
        return attemptOfResponse platform candidate ⟨some 0, none, some error.message⟩

def fetchLoop (platform : Platform) (options : DiscoveryOptions) :
    List Candidate → List SkillAttempt →
      Async (List SkillAttempt × Option (Candidate × SkillAttempt × JSString))
  | [], attempts => return (attempts, none)
  | candidate :: rest, attempts => do
      let requiresResolvedAddress ← Process.lift
        (candidateUsesResolvedName platform.idna candidate.url options.name)
      let (attempt, body) ← fetchCandidate platform options.fetchPath candidate
        (candidateOptions options requiresResolvedAddress)
      let attempts := attempts ++ [attempt]
      match body with
      | some body => return (attempts, some (candidate, attempt, body))
      | none => fetchLoop platform options rest attempts

def discoverSkillMd (platform : Platform) (options : DiscoveryOptions) : Async SkillResult := do
  let plan ← Process.lift (buildSkillCandidatePlan platform.idna options.name options.metadata
    (options.defaultScheme.getD (text "https")))
  let (attempts, outcome) ← fetchLoop platform options plan.candidates []
  match outcome with
  | some (candidate, attempt, body) =>
      let parsed := parseSkillMd body
      return {
        checked := true
        found := true
        reason := none
        canonicalPath := some candidate.path
        url := some candidate.url
        attempts := attempts
        hash := attempt.hash
        metadata := some parsed.metadata
        warnings := plan.warnings ++ parsed.warnings }
  | none =>
      return {
        checked := !plan.candidates.isEmpty
        found := false
        reason := none
        canonicalPath := plan.candidates.head?.map Candidate.path
        url := none
        attempts := attempts
        hash := none
        metadata := none
        warnings := plan.warnings }

def discoverOrSkip (platform : Platform) (options : ResolverOptions) (normalizedName : JSString)
    (metadata : Option Identity) (addresses : List JSString) : Async SkillResult :=
  if metadata.isSome || options.forceSkillDiscovery then
    discoverSkillMd platform
      { name := normalizedName
        metadata := metadata.elim [] Identity.strings
        addresses := addresses
        timeoutMs := options.timeoutMs
        fetchPath := options.fetchPath
        defaultScheme := options.defaultScheme }
  else return skippedSkill (text "skipped_no_metadata")

def resolve (json : Json) (platform : Platform) (options : ResolverOptions) (name : JSString) :
    Async ResolveResult := do
  let (normalizedName, dnsResult, metadataResult) ← lookupMetadata json options name
  let metadata := metadataResult.parsed.bind ParseResult.identity
  let skill ← discoverOrSkip platform options normalizedName metadata
    (effectiveAddresses dnsResult metadata)
  return buildResult normalizedName dnsResult metadataResult skill

end Async

/-! ## Processes that run alone -/

variable (answers : Answers Event Event.Answer JSError)

/-- The source with the same methods that gives the answers. -/
def Source.over (source : Source) : Source where
  resolveName := source.resolveName.map fun _ trace name => answers trace (.resolveName name)
  resolveTxt := source.resolveTxt.map fun _ trace name => answers trace (.resolveTxt name)
  sourceInfo := source.sourceInfo

/-- The fetcher, or `requestSkill`, that gives the answers. -/
def FetchPath.over (path : FetchPath) : FetchPath where
  fetcher := path.fetcher.map fun _ trace url options => answers trace (.fetch url options)
  requestSkill trace url options := answers trace (.requestSkill url options)

/-- The options with their source and fetcher replaced by ones that give the answers. -/
def ResolverOptions.over (options : ResolverOptions) : ResolverOptions :=
  { options with
    source := options.source.over answers
    fetchPath := options.fetchPath.over answers }

def DiscoveryOptions.over (options : DiscoveryOptions) : DiscoveryOptions :=
  { options with fetchPath := options.fetchPath.over answers }

namespace Async

theorem run_resolve_name (source : Source) (name : JSString) :
    (resolveName source name).run answers =
      AgentResolver.resolveName (source.over answers) name := by
  obtain ⟨resolveName, resolveTxt, sourceInfo⟩ := source
  cases resolveName with
  | some _ => exact Process.run_bind answers (awaitName name) _
  | none =>
      cases resolveTxt with
      | some _ => exact Process.run_bind answers (awaitTxt name) _
      | none => rfl

theorem run_lookup_records (source : Source) (name : JSString) (dnsResult : DnsResult)
    (lookup : Lookup) :
    (lookupRecords source name dnsResult lookup).run answers =
      AgentResolver.lookupRecords (source.over answers) name dnsResult lookup := by
  unfold lookupRecords AgentResolver.lookupRecords
  by_cases hname : lookup.queryName = name
  · rw [if_pos hname, if_pos hname]
    dsimp only
    cases (if dnsResult.records.TXT.isEmpty = true then txtLookupError dnsResult else none) with
    | none => rfl
    | some error => rfl
  · rw [if_neg hname, if_neg hname]
    obtain ⟨resolveName, resolveTxt, sourceInfo⟩ := source
    have hread : ∀ response : TxtAnswer,
        (if isLookupErrorStatus response.status then
            pure (.error (lookupErrorAttempt lookup response.code response.message none))
          else pure (.ok (response.records.getD [])) :
            Async (Except Attempt (List TxtRecord))).run answers =
          if isLookupErrorStatus response.status then
            pure (.error (lookupErrorAttempt lookup response.code response.message none))
          else pure (.ok (response.records.getD [])) := by
      intro response
      split
      · rfl
      · rfl
    cases resolveTxt with
    | some _ =>
        exact (Process.run_bind answers (awaitTxt lookup.queryName) _).trans
          (congrArg _ (funext hread))
    | none => rfl

theorem run_find_loop (json : Json) (source : Source) (name : JSString) (dnsResult : DnsResult)
    (lookups : List Lookup) (attempts : List Attempt) :
    (findLoop json source name dnsResult lookups attempts).run answers =
      AgentResolver.findLoop json (source.over answers) name dnsResult lookups attempts := by
  induction lookups generalizing attempts with
  | nil => rfl
  | cons lookup rest ih =>
      rw [findLoop, AgentResolver.findLoop, Process.run_bind, run_lookup_records]
      refine congrArg _ (funext fun records => ?_)
      cases records with
      | error attempt => exact ih _
      | ok records =>
          dsimp only
          split
          · rfl
          · exact ih _

theorem run_lookup_metadata (json : Json) (options : ResolverOptions) (name : JSString) :
    (lookupMetadata json options name).run answers =
      AgentResolver.lookupMetadata json (options.over answers) name := by
  rw [lookupMetadata, AgentResolver.lookupMetadata, Process.run_bind, Process.run_lift]
  refine congrArg _ (funext fun normalizedName => ?_)
  rw [Process.run_bind, run_resolve_name]
  refine congrArg _ (funext fun dnsResult => ?_)
  rw [Process.run_bind, findMetadata, AgentResolver.findMetadata, Process.run_bind,
    Process.run_lift]
  refine congrArg (· >>= _) (congrArg _ (funext fun lookups => ?_))
  exact run_find_loop answers json options.source normalizedName dnsResult lookups []

theorem run_request (path : FetchPath) (url : JSString) (options : FetchOptions) :
    (request path url options).run answers = (path.over answers).request url options := by
  obtain ⟨fetcher, requestSkill⟩ := path
  cases fetcher with
  | some _ => rfl
  | none => rfl

theorem run_fetch_candidate (platform : Platform) (path : FetchPath) (candidate : Candidate)
    (options : FetchOptions) :
    (fetchCandidate platform path candidate options).run answers =
      AgentResolver.fetchCandidate platform (path.over answers) candidate options := by
  have hpresent : (path.over answers).fetcher.isNone = path.fetcher.isNone := by
    exact Option.isNone_map
  rw [fetchCandidate, AgentResolver.fetchCandidate, hpresent]
  split
  · rfl
  · rw [Process.run_bind, Process.run_attempt, run_request]
    refine congrArg _ (funext fun outcome => ?_)
    cases outcome with
    | ok response => rfl
    | error error => rfl

theorem run_fetch_loop (platform : Platform) (options : DiscoveryOptions)
    (candidates : List Candidate) (attempts : List SkillAttempt) :
    (fetchLoop platform options candidates attempts).run answers =
      AgentResolver.fetchLoop platform (options.over answers) candidates attempts := by
  induction candidates generalizing attempts with
  | nil => rfl
  | cons candidate rest ih =>
      rw [fetchLoop, AgentResolver.fetchLoop, Process.run_bind, Process.run_lift]
      refine congrArg _ (funext fun requires => ?_)
      rw [Process.run_bind, run_fetch_candidate]
      refine congrArg _ (funext fun fetched => ?_)
      obtain ⟨attempt, body⟩ := fetched
      cases body with
      | some body => rfl
      | none => exact ih _

theorem run_discover_skill_md (platform : Platform) (options : DiscoveryOptions) :
    (discoverSkillMd platform options).run answers =
      AgentResolver.discoverSkillMd platform (options.over answers) := by
  rw [discoverSkillMd, AgentResolver.discoverSkillMd, Process.run_bind, Process.run_lift]
  refine congrArg _ (funext fun plan => ?_)
  rw [Process.run_bind, run_fetch_loop]
  refine congrArg _ (funext fun fetched => ?_)
  obtain ⟨attempts, outcome⟩ := fetched
  cases outcome with
  | some found => rfl
  | none => rfl

/-- Alone, a process of the resolver is `resolve` over the source and the fetcher that give the
answers. -/
theorem run_resolve (json : Json) (platform : Platform) (options : ResolverOptions)
    (name : JSString) :
    (resolve json platform options name).run answers =
      AgentResolver.resolve json platform (options.over answers) name := by
  rw [resolve, AgentResolver.resolve, Process.run_bind, run_lookup_metadata]
  refine congrArg _ (funext fun found => ?_)
  obtain ⟨normalizedName, dnsResult, metadataResult⟩ := found
  rw [Process.run_bind]
  refine congrArg (· >>= _) ?_
  have hforced : (options.over answers).forceSkillDiscovery = options.forceSkillDiscovery := rfl
  rw [discoverOrSkip, AgentResolver.discoverOrSkip, hforced]
  split
  · exact run_discover_skill_md answers platform _
  · rfl

end Async

end AgentResolver
