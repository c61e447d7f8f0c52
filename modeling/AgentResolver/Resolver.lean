import AgentResolver.Name
import AgentResolver.Skill.Fetch
import AgentResolver.Upstream.DnsSource

/-!
# The resolver

`AgentIdentityResolver.resolve` of `src/resolver.js`: a name is looked up, metadata is searched
for at the lookup names in order, and SKILL.md discovery runs when metadata was found or discovery
is forced. `lookupMetadata` is the part of `resolve` before discovery.
-/

namespace AgentResolver

open JavaScript Web
open Interaction (Run.call Run.lift Run.throw)

/-! ## DNS results -/

def isLookupErrorStatus (status : JSString) : Bool :=
  status ∈ [text "error", text "lookup_error", text "dns_error"]

/-- The result of `normalizeDnsResult`. -/
structure DnsResult where
  status : JSString
  resolved : Bool
  addresses : List JSString
  address : Option JSString
  recordType : Option JSString
  records : RecordSet
  recordStatus : RecordStatus
  hasExplicitRecordStatus : Bool
  source : SourceInfo
  errors : List LookupIssue

/-- The status of a record type that the answer gives none for. -/
def derivedStatus {α : Type} (records : List α) : JSString :=
  if records.isEmpty then text "no_records" else text "ok"

def normalizeDnsResult (result : NameAnswer) (source : Source) : DnsResult :=
  let records : RecordSet :=
    { A := (result.records.bind (·.A)).getD []
      AAAA := (result.records.bind (·.AAAA)).getD []
      TXT := (result.records.bind (·.TXT)).getD [] }
  let addresses := result.addresses.getD (records.A ++ records.AAAA)
  { status := result.status.getD (text "no_records")
    resolved := !addresses.isEmpty
    addresses := addresses
    address := addresses.head?
    recordType :=
      result.recordType.or
        (if !records.A.isEmpty then some (text "A")
          else if !records.AAAA.isEmpty then some (text "AAAA") else none)
    records := records
    recordStatus :=
      { A := (result.recordStatus.bind (·.A)).getD (derivedStatus records.A)
        AAAA := (result.recordStatus.bind (·.AAAA)).getD (derivedStatus records.AAAA)
        TXT := (result.recordStatus.bind (·.TXT)).getD (derivedStatus records.TXT) }
    hasExplicitRecordStatus := result.recordStatus.isSome
    source := (result.source.or source.sourceInfo).getD ⟨text "unknown", none⟩
    errors := result.errors.getD [] }

/-- The answer that `resolveName` makes up for a source without the method. -/
def nameAnswerOfTxt (txt : TxtAnswer) : NameAnswer :=
  let records := txt.records.getD []
  let failed := isLookupErrorStatus txt.status
  { status :=
      some (if !records.isEmpty then text "ok"
        else if failed then text "lookup_error" else text "no_records")
    resolved := none
    addresses := none
    address := none
    recordType := none
    records := some ⟨some [], some [], some records⟩
    recordStatus := some ⟨some (text "no_records"), some (text "no_records"), some txt.status⟩
    source := none
    errors := some (if failed then [⟨some (text "TXT"), txt.code, txt.message⟩] else []) }

def resolveName (source : Source) (name : JSString) : Run DnsResult := do
  match source.resolveName with
  | some resolveName =>
      let answer ← Run.call (.resolveName name) fun trace => resolveName trace name
      return normalizeDnsResult answer source
  | none =>
      let txt ← match source.resolveTxt with
        | some resolveTxt => Run.call (.resolveTxt name) fun trace => resolveTxt trace name
        | none => pure ⟨text "no_records", some [], none, none⟩
      return normalizeDnsResult (nameAnswerOfTxt txt) source

/-! ## Metadata lookup -/

def hasOnlyAddressErrors (errors : List LookupIssue) : Bool :=
  !errors.isEmpty && errors.all fun error =>
    error.recordType = some (text "A") || error.recordType = some (text "AAAA")

/-- The TXT error that a DNS result stands for: its code and message. -/
def txtLookupError (dnsResult : DnsResult) : Option (Option JSString × Option JSString) :=
  let txtError := dnsResult.errors.find? fun error =>
    isFalsy error.recordType || error.recordType = some (text "TXT")
  match txtError with
  | some error => some (error.code, error.message)
  | none =>
      if isLookupErrorStatus dnsResult.recordStatus.TXT && dnsResult.records.TXT.isEmpty then
        some (some dnsResult.recordStatus.TXT,
          some (text "TXT metadata lookup failed before records could be read."))
      else if !dnsResult.hasExplicitRecordStatus && isLookupErrorStatus dnsResult.status &&
          dnsResult.records.TXT.isEmpty && !hasOnlyAddressErrors dnsResult.errors then
        some (some dnsResult.status,
          some (text "DNS lookup failed before TXT metadata could be read."))
      else none

/-- An entry of `attempts`. A failed lookup has a code and a message, a parsed answer the
diagnostics; the members an entry does not have are `none`. -/
structure Attempt where
  location : JSString
  queryName : JSString
  status : MetadataStatus
  code : Option JSString
  message : Option JSString
  records : Option (List TxtRecord)
  ignored : Option (List JSString)
  malformed : Option (List Diagnostic)
  unsupported : Option (List Diagnostic)

/-- The entry of a failed lookup; only the one at the apex has a `records` member. -/
def lookupErrorAttempt (lookup : Lookup) (code message : Option JSString)
    (records : Option (List TxtRecord)) : Attempt where
  location := lookup.location
  queryName := lookup.queryName
  status := .lookupError
  code := code
  message := message
  records := records
  ignored := none
  malformed := none
  unsupported := none

def metadataAttemptFromParsed (lookup : Lookup) (parsed : ParseResult)
    (records : List TxtRecord) : Attempt where
  location := lookup.location
  queryName := lookup.queryName
  status := if records.isEmpty then .noRecords else parsed.status
  code := none
  message := none
  records := some records
  ignored := some parsed.ignored
  malformed := some parsed.malformed
  unsupported := some parsed.unsupported

/-- The result of `findMetadata`. -/
structure MetadataResult where
  parsed : Option ParseResult
  lookup : Option Lookup
  attempts : List Attempt

/-- The records to parse at a lookup name, or the attempt of a failed lookup. -/
def lookupRecords (source : Source) (normalizedName : JSString) (dnsResult : DnsResult)
    (lookup : Lookup) : Run (Except Attempt (List TxtRecord)) := do
  if lookup.queryName = normalizedName then
    let records := dnsResult.records.TXT
    match if records.isEmpty then txtLookupError dnsResult else none with
    | some (code, message) => return .error (lookupErrorAttempt lookup code message (some []))
    | none => return .ok records
  else
    let response ← match source.resolveTxt with
      | some resolveTxt =>
          Run.call (.resolveTxt lookup.queryName) fun trace => resolveTxt trace lookup.queryName
      | none => Run.throw ⟨text "source.resolveTxt is not a function"⟩
    if isLookupErrorStatus response.status then
      return .error (lookupErrorAttempt lookup response.code response.message none)
    else return .ok (response.records.getD [])

/-- The loop of `findMetadata`. -/
def findLoop (json : Json) (source : Source) (normalizedName : JSString)
    (dnsResult : DnsResult) : List Lookup → List Attempt → Run MetadataResult
  | [], attempts => return ⟨none, none, attempts⟩
  | lookup :: rest, attempts => do
      match ← lookupRecords source normalizedName dnsResult lookup with
      | .error attempt => findLoop json source normalizedName dnsResult rest (attempts ++ [attempt])
      | .ok records =>
          let parsed := parseTxtRecords json records
          let attempts := attempts ++ [metadataAttemptFromParsed lookup parsed records]
          if parsed.status = .found then return ⟨some parsed, some lookup, attempts⟩
          else findLoop json source normalizedName dnsResult rest attempts

def findMetadata (json : Json) (source : Source) (normalizedName : JSString)
    (dnsResult : DnsResult) (lookupLocations : Option (List LookupLocation)) :
    Run MetadataResult := do
  let lookups ← Run.lift (buildLookupNames normalizedName lookupLocations)
  findLoop json source normalizedName dnsResult lookups []

/-- The first reason of the priority list that some attempt has. -/
def finalReasonFromAttempts (attempts : List Attempt) : MetadataStatus :=
  let priority : List MetadataStatus :=
    [.malformedRecords, .unsupportedRecords, .lookupError, .noCompatibleRecords, .noRecords]
  (priority.find? fun reason => attempts.any fun attempt => attempt.status = reason).getD
    .noRecords

/-! ## Results -/

/-- `` `DNS lookup warning: ${code ?? 'error'} ${message ?? ''}`.trim() ``. -/
def lookupWarning (error : LookupIssue) : JSString :=
  trim (text "DNS lookup warning: " ++ error.code.getD (text "error") ++ unit ' ' ::
    error.message.getD [])

def attemptWarnings (attempt : Attempt) : List JSString :=
  if attempt.status = .malformedRecords then
    [text "Malformed agent metadata at " ++ attempt.queryName ++ [unit '.']]
  else if attempt.status = .unsupportedRecords then
    [text "Unsupported agent metadata at " ++ attempt.queryName ++ [unit '.']]
  else []

def collectWarnings (dnsResult : DnsResult) (metadataResult : MetadataResult)
    (skill : SkillResult) : List JSString :=
  dnsResult.errors.map lookupWarning ++
    (if metadataResult.parsed.isNone then [text "No compatible agent metadata found."] else []) ++
    metadataResult.attempts.flatMap attemptWarnings ++
    skill.warnings.map (text "SKILL.md warning: " ++ ·) ++
    (if skill.checked && !skill.found then [text "SKILL.md was not found."] else [])

/-- The address that the metadata publishes, if any. -/
def metadataAddress (metadata : Option Identity) : List JSString :=
  match metadata.bind fun identity => getProperty identity.strings (text "address") with
  | some address => if address.isEmpty then [] else [address]
  | none => []

def skippedSkill (reason : JSString) : SkillResult where
  checked := false
  found := false
  reason := some reason
  canonicalPath := none
  url := none
  attempts := []
  hash := none
  metadata := none
  warnings := []

/-- The options of `AgentIdentityResolver`; `forceSkillDiscovery` is the value of the constructor's
field of that name. -/
structure ResolverOptions where
  source : Source
  lookupLocations : Option (List LookupLocation)
  timeoutMs : Option Nat
  fetchPath : FetchPath
  defaultScheme : Option JSString
  forceSkillDiscovery : Bool

inductive ResolveStatus where
  | found
  | notFound
  deriving DecidableEq

/-- The result of `resolve`. -/
structure ResolveResult where
  name : JSString
  resolved : Bool
  addresses : List JSString
  address : Option JSString
  recordType : Option JSString
  source : SourceInfo
  records : RecordSet
  recordStatus : RecordStatus
  errors : List LookupIssue
  agentReady : Bool
  metadataFound : Bool
  metadataSource : Option JSString
  rawMetadata : Option JSString
  metadata : Option Identity
  skill : SkillResult
  capabilities : List SimpleObject
  protocols : List SimpleObject
  warnings : List JSString
  attempts : List Attempt
  status : ResolveStatus
  reason : Option MetadataStatus
  queryName : Option JSString
  location : Option JSString
  identity : Option (Identity × JSString)
  record : Option JSString

/-- The first three steps of `resolve`. -/
def lookupMetadata (json : Json) (options : ResolverOptions) (name : JSString) :
    Run (JSString × DnsResult × MetadataResult) := do
  let normalizedName ← Run.lift (normalizeHandshakeName name)
  let dnsResult ← resolveName options.source normalizedName
  let metadataResult ←
    findMetadata json options.source normalizedName dnsResult options.lookupLocations
  return (normalizedName, dnsResult, metadataResult)

/-- The addresses handed to discovery and reported in the result. -/
def effectiveAddresses (dnsResult : DnsResult) (metadata : Option Identity) : List JSString :=
  if dnsResult.addresses.isEmpty then metadataAddress metadata else dnsResult.addresses

/-- The discovery step of `resolve`. -/
def discoverOrSkip (platform : Platform) (options : ResolverOptions) (normalizedName : JSString)
    (metadata : Option Identity) (addresses : List JSString) : Run SkillResult :=
  if metadata.isSome || options.forceSkillDiscovery then
    discoverSkillMd platform
      { name := normalizedName
        metadata := metadata.elim [] Identity.strings
        addresses := addresses
        timeoutMs := options.timeoutMs
        fetchPath := options.fetchPath
        defaultScheme := options.defaultScheme }
  else return skippedSkill (text "skipped_no_metadata")

/-- The result object that `resolve` builds. -/
def buildResult (normalizedName : JSString) (dnsResult : DnsResult)
    (metadataResult : MetadataResult) (skill : SkillResult) : ResolveResult :=
  let metadata := metadataResult.parsed.bind ParseResult.identity
  let addresses := effectiveAddresses dnsResult metadata
  let metadataFound := metadata.isSome
  { name := normalizedName
    resolved := dnsResult.resolved
    addresses := addresses
    address := addresses.head?
    recordType := dnsResult.recordType
    source := dnsResult.source
    records := dnsResult.records
    recordStatus := dnsResult.recordStatus
    errors := dnsResult.errors
    agentReady := metadata.elim false fun identity => identity.ready.getD true
    metadataFound := metadataFound
    metadataSource := if metadataFound then some (text "TXT") else none
    rawMetadata := metadataResult.parsed.bind ParseResult.record
    metadata := metadata
    skill := skill
    capabilities := metadata.elim [] Identity.capabilities
    protocols := metadata.elim [] Identity.protocols
    warnings := collectWarnings dnsResult metadataResult skill
    attempts := metadataResult.attempts
    status := if metadataFound then .found else .notFound
    reason := if metadataFound then none else some (finalReasonFromAttempts metadataResult.attempts)
    queryName := if metadataFound then metadataResult.lookup.map Lookup.queryName else none
    location := if metadataFound then metadataResult.lookup.map Lookup.location else none
    identity := metadata.map fun identity => (identity, normalizedName)
    record := if metadataFound then metadataResult.parsed.bind ParseResult.record else none }

/-- `AgentIdentityResolver.resolve`. -/
def resolve (json : Json) (platform : Platform) (options : ResolverOptions) (name : JSString) :
    Run ResolveResult := do
  let (normalizedName, dnsResult, metadataResult) ← lookupMetadata json options name
  let metadata := metadataResult.parsed.bind ParseResult.identity
  let skill ← discoverOrSkip platform options normalizedName metadata
    (effectiveAddresses dnsResult metadata)
  return buildResult normalizedName dnsResult metadataResult skill

end AgentResolver
