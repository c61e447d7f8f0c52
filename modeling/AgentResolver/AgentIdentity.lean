import AgentResolver.Resolution.Async

/-!
# Constructing a resolver

The constructors of `AgentIdentityResolver` and `DnsHandshakeSource`, and `resolveAgentIdentity`,
of `src/resolver.js` and `src/upstream/dns-source.js`: what becomes of the options object before a
run starts. A value that is not given is `none`.
-/

namespace AgentResolver

open JavaScript
open Interaction (Answers Process.lift Process.run Process.run_bind Process.run_lift Run.lift)

/-- A `Resolver` object of `node:dns/promises`: its outcomes as it stands, and those after
`setServers`, which throws on addresses that are none. -/
structure NodeResolver where
  outcomes : DnsResolver
  setServers : List JSString → Except JSError DnsResolver

/-- The options of `DnsHandshakeSource`. -/
structure DnsOptions where
  resolver : Option NodeResolver
  servers : Option (List JSString)

/-- The `skill` member of the options of `AgentIdentityResolver`. -/
structure SkillOptions where
  timeoutMs : Option Nat
  fetcher : Option Fetcher
  defaultScheme : Option JSString
  forceSkillDiscovery : Option Bool
  checkSkillWithoutMetadata : Option Bool

/-- The options of `AgentIdentityResolver` as they are given. -/
structure AgentOptions where
  source : Option Source
  dns : Option DnsOptions
  lookupLocations : Option (List LookupLocation)
  skill : Option SkillOptions
  forceSkillDiscovery : Option Bool
  checkSkillWithoutMetadata : Option Bool

/-- No options: `{}`. -/
def DnsOptions.empty : DnsOptions := ⟨none, none⟩

def SkillOptions.empty : SkillOptions := ⟨none, none, none, none, none⟩

def AgentOptions.empty : AgentOptions := ⟨none, none, none, none, none, none⟩

/-- What the program finds in Node: a new `Resolver`, and the client behind `requestSkill`. -/
structure System where
  newResolver : NodeResolver
  requestSkill : Fetcher

variable (system : System)

/-- `new DnsHandshakeSource(options)`. -/
def newDnsSource (options : DnsOptions) : Except JSError Source := do
  let resolver := options.resolver.getD system.newResolver
  let outcomes ← match options.servers with
    | some servers => resolver.setServers servers
    | none => .ok resolver.outcomes
  return outcomes.source options.servers

/-- `new AgentIdentityResolver(options)`. -/
def newAgentIdentityResolver (options : AgentOptions) : Except JSError ResolverOptions := do
  let source ← match options.source with
    | some source => .ok source
    | none => newDnsSource system (options.dns.getD .empty)
  let skill := options.skill.getD .empty
  let forced := options.forceSkillDiscovery.or <| options.checkSkillWithoutMetadata.or <|
    skill.forceSkillDiscovery.or skill.checkSkillWithoutMetadata
  return {
    source := source
    lookupLocations := options.lookupLocations
    timeoutMs := skill.timeoutMs
    fetchPath := ⟨skill.fetcher, system.requestSkill⟩
    defaultScheme := skill.defaultScheme
    forceSkillDiscovery := forced.getD false }

/-- `resolveAgentIdentity(name, options)`: an exception of the constructor rejects its promise. -/
def resolveAgentIdentity (json : Json) (platform : Platform) (name : JSString)
    (options : AgentOptions) : Run ResolveResult := do
  let resolver ← Run.lift (newAgentIdentityResolver system options)
  resolve json platform resolver name

/-- `resolveAgentIdentity` as a process. -/
def Async.resolveAgentIdentity (json : Json) (platform : Platform) (name : JSString)
    (options : AgentOptions) : Async ResolveResult := do
  let resolver ← Process.lift (newAgentIdentityResolver system options)
  Async.resolve json platform resolver name

/-- The outcome of `resolveAgentIdentity` when sources and fetchers give the answers. -/
def resolveOver (json : Json) (platform : Platform)
    (answers : Answers Event Event.Answer JSError) (name : JSString) (options : AgentOptions) :
    Run ResolveResult := do
  let resolver ← Run.lift (newAgentIdentityResolver system options)
  resolve json platform (resolver.over answers) name

theorem Async.run_resolve_agent_identity (json : Json) (platform : Platform)
    (answers : Answers Event Event.Answer JSError) (name : JSString) (options : AgentOptions) :
    (Async.resolveAgentIdentity system json platform name options).run answers =
      resolveOver system json platform answers name options := by
  rw [Async.resolveAgentIdentity, resolveOver, Process.run_bind, Process.run_lift]
  exact congrArg _ (funext fun resolver => Async.run_resolve answers json platform resolver name)

end AgentResolver
