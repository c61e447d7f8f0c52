import AgentResolver.JavaScript.Strings

/-!
# Constants of the resolver

The values of `src/constants.js`. The two record recognisers given there as regular expressions
are functions in `Metadata.Parse`.
-/

namespace AgentResolver

open JavaScript

def metadataPrefix : JSString := text "agent-identity:v1="

def defaultSkillPaths : List JSString :=
  [text "/SKILL.md", text "/skill.md", text "/.well-known/agent/SKILL.md"]

def maxTxtValueLength : Nat := 4096
def maxStringFieldLength : Nat := 2048
def maxCapabilityCount : Nat := 64
def maxProtocolCount : Nat := 64
def defaultSkillFetchTimeoutMs : Nat := 3000
def maxSkillBytes : Nat := 512 * 1024

end AgentResolver
