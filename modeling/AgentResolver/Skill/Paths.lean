import AgentResolver.Constants
import AgentResolver.JavaScript.Values
import AgentResolver.Web.Url

/-!
# SKILL.md candidates

`buildSkillCandidatePlan` of `src/skill-paths.js`. Warnings are returned in the order in which
the source pushes them. The one `new URL` outside a `try` block is where the plan can throw.
-/

namespace AgentResolver

open JavaScript Web

def isHttpUrl (url : Url) : Bool := url.protocol ∈ [text "http:", text "https:"]

/-- `/^[a-z][a-z0-9+.-]*:/i`. -/
def urlSchemeRe : JSString → Bool
  | [] => false
  | c :: rest =>
      let inScheme (d : CodeUnit) : Bool :=
        isAsciiAlpha d || isAsciiDigit d || d == unit '+' || d == unit '.' || d == unit '-'
      isAsciiAlpha c && (rest.dropWhile inScheme).head? == some (unit ':')

/-- What `normalizePath` returns: an absolute URL also has its text. -/
structure NormalizedPath where
  path : JSString
  url : Option JSString
  deriving DecidableEq

/-- `normalizePath` with the warnings it pushes; a `path` that is not a string is `none`. -/
def normalizePath (idna : Idna) (path : Option JSString) :
    List JSString × Option NormalizedPath :=
  match path with
  | none => ([], none)
  | some path =>
      let trimmed := trim path
      if trimmed.isEmpty then ([], none)
      else if urlSchemeRe trimmed then
        match newUrl idna trimmed with
        | none => ([text "Ignoring malformed absolute SKILL.md URL."], none)
        | some url =>
            if !isHttpUrl url then
              ([text "Ignoring unsupported SKILL.md URL scheme: " ++ url.protocol], none)
            else
              let pathname := if url.pathname.isEmpty then [unit '/'] else url.pathname
              ([], some ⟨pathname, some url.href⟩)
      else
        let normalized := if startsWith trimmed [unit '/'] then trimmed else unit '/' :: trimmed
        ([], some ⟨normalized, none⟩)

/-- `endpointOrigin` with the warnings it pushes. -/
def endpointOrigin (idna : Idna) (endpoint : Option JSString) :
    List JSString × Option JSString :=
  match endpoint with
  | none => ([], none)
  | some endpoint =>
      if endpoint.isEmpty then ([], none)
      else
        match newUrl idna endpoint with
        | none => ([text "Ignoring malformed endpoint URL for SKILL.md discovery."], none)
        | some url =>
            if !isHttpUrl url then
              ([text "Ignoring unsupported endpoint scheme for SKILL.md discovery: " ++
                url.protocol], none)
            else ([], some url.origin)

structure Candidate where
  path : JSString
  url : JSString
  deriving DecidableEq

/-- `normalized.url ?? new URL(normalized.path, baseOrigin).toString()`. -/
def candidateUrl (idna : Idna) (baseOrigin : JSString) (normalized : NormalizedPath) :
    Except JSError JSString :=
  match normalized.url with
  | some url => .ok url
  | none =>
      match newUrlWithBase idna normalized.path baseOrigin with
      | some url => .ok url.href
      | none => .error ⟨text "Invalid URL"⟩

/-- The loop of `buildSkillCandidatePlan`, with the URLs seen so far. -/
def collectCandidates (idna : Idna) (baseOrigin : JSString) (seen : List JSString) :
    List (Option JSString) → Except JSError (List Candidate × List JSString)
  | [] => .ok ([], [])
  | rawPath :: rest =>
      let (warnings, normalized) := normalizePath idna rawPath
      match normalized with
      | none => do
          let (candidates, more) ← collectCandidates idna baseOrigin seen rest
          return (candidates, warnings ++ more)
      | some normalized => do
          let url ← candidateUrl idna baseOrigin normalized
          if url ∈ seen then
            let (candidates, more) ← collectCandidates idna baseOrigin seen rest
            return (candidates, warnings ++ more)
          else
            let (candidates, more) ← collectCandidates idna baseOrigin (url :: seen) rest
            return (⟨normalized.path, url⟩ :: candidates, warnings ++ more)

structure SkillCandidatePlan where
  candidates : List Candidate
  warnings : List JSString
  deriving DecidableEq

/-- The origin that relative paths are resolved against, with the warnings about the endpoint. -/
def effectiveOrigin (idna : Idna) (name : JSString) (metadata : Properties JSString)
    (defaultScheme : JSString) : List JSString × JSString :=
  let (warnings, origin) := endpointOrigin idna (getProperty metadata (text "endpoint"))
  (warnings, origin.getD (defaultScheme ++ text "://" ++ name))

/-- `buildSkillCandidatePlan`; of the metadata it reads two string properties. -/
def buildSkillCandidatePlan (idna : Idna) (name : JSString) (metadata : Properties JSString)
    (defaultScheme : JSString) : Except JSError SkillCandidatePlan := do
  let (warnings, baseOrigin) := effectiveOrigin idna name metadata defaultScheme
  let rawPaths := getProperty metadata (text "skill") :: defaultSkillPaths.map some
  let (candidates, more) ← collectCandidates idna baseOrigin [] rawPaths
  return { candidates, warnings := warnings ++ more }

end AgentResolver
