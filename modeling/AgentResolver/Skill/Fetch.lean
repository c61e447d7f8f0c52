import AgentResolver.Environment
import AgentResolver.Skill.Document
import AgentResolver.Skill.Paths

/-!
# Fetching SKILL.md

`discoverSkillMd` of `src/skill-fetch.js`: the candidates of the plan are requested in order until
one has a usable answer. A candidate on the handshake name itself is only requested at a resolved
address, unless a fetcher is injected. `requestSkill` is a parameter here; its own event handlers
are modelled in `Skill.Request`.
-/

namespace AgentResolver

open JavaScript Web
open Interaction (Run.call Run.attempt Run.lift)

/-- The platform functions of discovery: host names and the hexadecimal SHA-256 digest. -/
structure Platform where
  idna : Idna
  sha256 : List UInt8 → JSString

/-- A platform without internationalised names, for runs that meet none. -/
def Platform.ascii : Platform where
  idna := .ascii
  sha256 _ := []

/-- `sha256(content)`: the hash of the UTF-8 encoding. -/
def sha256 (platform : Platform) (content : JSString) : JSString :=
  platform.sha256 (encode (toScalars content))

/-- The first nonempty address. -/
def selectAddress (addresses : List JSString) : Option JSString :=
  addresses.find? fun address => !address.isEmpty

/-- Lower case, without one trailing dot. -/
def normalizeHostname (hostname : JSString) : JSString :=
  toLowerCase (if hostname.getLast? = some (unit '.') then hostname.dropLast else hostname)

def candidateUsesResolvedName (idna : Idna) (candidateUrl name : JSString) :
    Except JSError Bool :=
  match newUrl idna candidateUrl with
  | none => .error ⟨text "Invalid URL"⟩
  | some url => .ok (normalizeHostname url.hostname = normalizeHostname name)

/-- An attempt without its body, which is returned beside it. -/
structure SkillAttempt where
  url : JSString
  path : JSString
  status : Int
  found : Bool
  error : Option JSString
  hash : Option JSString

/-- The two ways to make a request: an injected fetcher or `requestSkill`. -/
structure FetchPath where
  fetcher : Option Fetcher
  requestSkill : Fetcher

/-- The call that `fetchCandidate` awaits. -/
def FetchPath.request (path : FetchPath) (url : JSString) (options : FetchOptions) :
    Run Response :=
  match path.fetcher with
  | some fetch => Run.call (.fetch url options) fun trace => fetch trace url options
  | none =>
      Run.call (.requestSkill url options) fun trace => path.requestSkill trace url options

/-- The attempt that a response leads to and, when it is found, the body. -/
def attemptOfResponse (platform : Platform) (candidate : Candidate) (response : Response) :
    SkillAttempt × Option JSString :=
  let status := response.status.getD 0
  let error := if isFalsy response.error then none else response.error
  let notFound : SkillAttempt := ⟨candidate.url, candidate.path, status, false, error, none⟩
  match response.body with
  | some body =>
      if 200 ≤ status ∧ status < 300 then
        ({ notFound with found := true, hash := some (sha256 platform body) }, some body)
      else (notFound, none)
  | none => (notFound, none)

/-- The attempt at a candidate that must not be requested. -/
def blockedAttempt (candidate : Candidate) : SkillAttempt where
  url := candidate.url
  path := candidate.path
  status := 0
  found := false
  error := some (text "resolved address or injected fetcher is required before fetching SKILL.md")
  hash := none

/-- `fetchCandidate`: the attempt and, when it is found, the body. A call that throws counts as a
response with the error's message. -/
def fetchCandidate (platform : Platform) (path : FetchPath) (candidate : Candidate)
    (options : FetchOptions) : Run (SkillAttempt × Option JSString) :=
  if options.requiresResolvedAddress && isFalsy options.address && path.fetcher.isNone then
    return (blockedAttempt candidate, none)
  else do
    match ← Run.attempt (path.request candidate.url options) with
    | .ok response => return attemptOfResponse platform candidate response
    | .error error =>
        return attemptOfResponse platform candidate ⟨some 0, none, some error.message⟩

/-- The parameters of `discoverSkillMd`. -/
structure DiscoveryOptions where
  name : JSString
  metadata : Properties JSString
  addresses : List JSString
  timeoutMs : Option Nat
  fetchPath : FetchPath
  defaultScheme : Option JSString

/-- The result of `discoverSkillMd`, and of a skipped discovery. -/
structure SkillResult where
  checked : Bool
  found : Bool
  reason : Option JSString
  canonicalPath : Option JSString
  url : Option JSString
  attempts : List SkillAttempt
  hash : Option JSString
  metadata : Option (Properties JSString)
  warnings : List JSString

/-- The options a candidate is fetched with. -/
def candidateOptions (options : DiscoveryOptions) (requiresResolvedAddress : Bool) :
    FetchOptions where
  address := if requiresResolvedAddress then selectAddress options.addresses else none
  requiresResolvedAddress := requiresResolvedAddress
  name := options.name
  timeoutMs := options.timeoutMs.getD defaultSkillFetchTimeoutMs

/-- The loop over the candidates: the attempts, and the candidate, attempt and body that ended
it. -/
def fetchLoop (platform : Platform) (options : DiscoveryOptions) :
    List Candidate → List SkillAttempt →
      Run (List SkillAttempt × Option (Candidate × SkillAttempt × JSString))
  | [], attempts => return (attempts, none)
  | candidate :: rest, attempts => do
      let requiresResolvedAddress ← Run.lift
        (candidateUsesResolvedName platform.idna candidate.url options.name)
      let (attempt, body) ← fetchCandidate platform options.fetchPath candidate
        (candidateOptions options requiresResolvedAddress)
      let attempts := attempts ++ [attempt]
      match body with
      | some body => return (attempts, some (candidate, attempt, body))
      | none => fetchLoop platform options rest attempts

def discoverSkillMd (platform : Platform) (options : DiscoveryOptions) : Run SkillResult := do
  let plan ← Run.lift (buildSkillCandidatePlan platform.idna options.name options.metadata
    (options.defaultScheme.getD (text "https")))
  let (attempts, outcome) ← fetchLoop platform options plan.candidates []
  match outcome with
  | some (candidate, attempt, body) =>
      let parsed := parseSkillMd body
      return {
        checked := true
        found := true
        reason := none
        canonicalPath := some candidate.path
        url := some candidate.url
        attempts := attempts
        hash := attempt.hash
        metadata := some parsed.metadata
        warnings := plan.warnings ++ parsed.warnings }
  | none =>
      return {
        checked := !plan.candidates.isEmpty
        found := false
        reason := none
        canonicalPath := plan.candidates.head?.map Candidate.path
        url := none
        attempts := attempts
        hash := none
        metadata := none
        warnings := plan.warnings }

end AgentResolver
