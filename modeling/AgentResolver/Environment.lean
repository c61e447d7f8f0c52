import AgentResolver.Interaction.Run
import AgentResolver.Metadata.Parse

/-!
# The environment of a resolver run

The lookup sources and fetchers a run talks to, and the events of a run. A source or fetcher is
given by its answers, which may depend on the whole trace of the run; an answer is either a value
or a thrown error. Fields that a custom source may leave out are optional.
-/

namespace AgentResolver

open JavaScript

/-- What `source.resolveTxt(name)` returns. -/
structure TxtAnswer where
  status : JSString
  records : Option (List TxtRecord)
  code : Option JSString
  message : Option JSString

structure RecordSet where
  A : List JSString
  AAAA : List JSString
  TXT : List TxtRecord

/-- The `records` member of an answer: record types may be missing. -/
structure PartialRecords where
  A : Option (List JSString)
  AAAA : Option (List JSString)
  TXT : Option (List TxtRecord)

structure RecordStatus where
  A : JSString
  AAAA : JSString
  TXT : JSString

/-- The `recordStatus` member of an answer. -/
structure PartialStatus where
  A : Option JSString
  AAAA : Option JSString
  TXT : Option JSString

/-- An element of an `errors` array. -/
structure LookupIssue where
  recordType : Option JSString
  code : Option JSString
  message : Option JSString
  deriving DecidableEq

/-- What `sourceInfo()` returns. -/
structure SourceInfo where
  type : JSString
  servers : Option (List JSString)

/-- What `source.resolveName(name)` returns. -/
structure NameAnswer where
  status : Option JSString
  resolved : Option Bool
  addresses : Option (List JSString)
  address : Option JSString
  recordType : Option JSString
  records : Option PartialRecords
  recordStatus : Option PartialStatus
  source : Option SourceInfo
  errors : Option (List LookupIssue)

/-- The options object handed to a fetcher, without the two functions in it. -/
structure FetchOptions where
  address : Option JSString
  requiresResolvedAddress : Bool
  name : JSString
  timeoutMs : Nat
  deriving DecidableEq

/-- What a fetcher returns; a body that is not a string counts as none. -/
structure Response where
  status : Option Int
  body : Option JSString
  error : Option JSString

/-- The calls of a run to the outside world. -/
inductive Event where
  | resolveName (name : JSString)
  | resolveTxt (name : JSString)
  | fetch (url : JSString) (options : FetchOptions)
  | requestSkill (url : JSString) (options : FetchOptions)
  deriving DecidableEq

abbrev Trace := List Event

abbrev Run (α : Type) := Interaction.Run Event JSError α

/-- A lookup source; a method that is missing is `none`. -/
structure Source where
  resolveName : Option (Trace → JSString → Except JSError NameAnswer)
  resolveTxt : Option (Trace → JSString → Except JSError TxtAnswer)
  sourceInfo : Option SourceInfo

/-- An injected fetcher, or an implementation of `requestSkill`. -/
abbrev Fetcher := Trace → JSString → FetchOptions → Except JSError Response

/-- Strings and missing values that are falsy. -/
def isFalsy (value : Option JSString) : Bool := value.all List.isEmpty

end AgentResolver
