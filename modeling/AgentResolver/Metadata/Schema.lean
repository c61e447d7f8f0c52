import AgentResolver.Constants
import AgentResolver.JavaScript.CaseMapping
import AgentResolver.JavaScript.Values

/-!
# Identity metadata schema

`validateAgentIdentityMetadata` and its normalisers, after `src/metadata/schema.js`. The source
threads one mutable `errors` array through all of them; here every function returns the errors
it pushes, in order, and the caller appends them. `validateProperties` is the validator applied
to the property reader of an object: it depends on nothing else of the object.
-/

namespace AgentResolver

open JavaScript

def optionalStringFields : List JSString :=
  [text "id", text "did", text "name", text "publicKey", text "service", text "endpoint",
    text "description", text "manifestHash", text "address", text "skill"]

def capabilityStringFields : List JSString :=
  [text "id", text "name", text "description", text "input", text "output", text "pricing",
    text "auth", text "endpoint"]

def protocolStringFields : List JSString :=
  [text "id", text "name", text "version", text "transport", text "endpoint"]

/-- The string of a valid field value, or the error that is pushed. -/
def validateStringField (value : JsonValue) (field : JSString) : Except JSString JSString :=
  match value with
  | .string s =>
      if (trim s).isEmpty then .error (field ++ text " must not be empty")
      else if s.length > maxStringFieldLength then .error (field ++ text " is too long")
      else .ok s
  | _ => .error (field ++ text " must be a string")

/-- `value.split(',').map(trim).filter(Boolean)`. -/
def commaItems (value : JSString) : List JSString :=
  ((split value (unit ',')).map trim).filter fun item => !item.isEmpty

/-- A comma-separated string becomes an array of strings, every other value is kept. -/
def splitCommaList : JsonValue → JsonValue
  | .string value => .array ((commaItems value).map .string)
  | value => value

/-- The loop over string fields that `normalizeSimpleObject` and the validator share. Field `f`
is read by `read f` and called `label f` in errors. -/
def collectStringFields (read : JSString → Option JsonValue) (label : JSString → JSString) :
    List JSString → List JSString × Properties JSString
  | [] => ([], [])
  | field :: rest =>
      let (errors, normalized) := collectStringFields read label rest
      match present (read field) with
      | none => (errors, normalized)
      | some value =>
          match validateStringField value (label field) with
          | .ok s => (errors, (field, trim s) :: normalized)
          | .error error => (error :: errors, normalized)

/-- A normalised capability or protocol. -/
abbrev SimpleObject := Properties JSString

def normalizeSimpleObject (item : Properties JsonValue) (fields : List JSString)
    (kind : JSString) : List JSString × Option SimpleObject :=
  let (errors, normalized) :=
    collectStringFields (getProperty item) (fun field => kind ++ unit '.' :: field) fields
  let missing := (errors ++ [kind ++ text " must include id or name"], none)
  match (getProperty normalized (text "id")).or (getProperty normalized (text "name")) with
  | none => missing
  | some idSource =>
      if idSource.isEmpty then missing
      else
        let withId := setProperty normalized (text "id") idSource
        let name := (getProperty withId (text "name")).getD idSource
        (errors, some (setProperty withId (text "name") name))

/-- What the two list normalisers differ in. -/
structure EntryKind where
  kind : JSString
  plural : JSString
  fields : List JSString
  maxCount : Nat

/-- One iteration of the loop over a list: the errors pushed and the entry pushed, if any. -/
def normalizeEntry (spec : EntryKind) : JsonValue → List JSString × Option SimpleObject
  | .string value =>
      match validateStringField (.string value) spec.kind with
      | .ok s => ([], some [(text "id", trim s), (text "name", trim s)])
      | .error error => ([error], none)
  | .object members => normalizeSimpleObject members spec.fields spec.kind
  | _ => ([spec.plural ++ text " must contain strings or objects"], none)

/-- The common body of `normalizeCapabilities` and `normalizeProtocols`. -/
def normalizeEntries (spec : EntryKind) (value : Option JsonValue) :
    List JSString × List SimpleObject :=
  match (present value).map splitCommaList with
  | none => ([], [])
  | some (.array list) =>
      let tooMany :=
        if list.length > spec.maxCount then [spec.plural ++ text " has too many entries"] else []
      let entries := list.map (normalizeEntry spec)
      (tooMany ++ entries.flatMap Prod.fst, entries.filterMap Prod.snd)
  | some _ => ([spec.plural ++ text " must be an array or comma-separated string"], [])

def capabilityEntries : EntryKind where
  kind := text "capability"
  plural := text "capabilities"
  fields := capabilityStringFields
  maxCount := maxCapabilityCount

def protocolEntries : EntryKind where
  kind := text "protocol"
  plural := text "protocols"
  fields := protocolStringFields
  maxCount := maxProtocolCount

def normalizeCapabilities : Option JsonValue → List JSString × List SimpleObject :=
  normalizeEntries capabilityEntries

def normalizeProtocols : Option JsonValue → List JSString × List SimpleObject :=
  normalizeEntries protocolEntries

/-- The boolean read, or the error pushed; `none` for an absent value. -/
def normalizeBoolean (value : Option JsonValue) (field : JSString) :
    Except JSString (Option Bool) :=
  let unreadable := .error (field ++ text " must be a boolean-like value")
  match present value with
  | none => .ok none
  | some (.boolean b) => .ok (some b)
  | some (.number n) => .ok (some (n ≠ .finite 0))
  | some (.string s) =>
      let normalized := toLowerCase (trim s)
      if normalized ∈ [text "1", text "true", text "yes", text "ready"] then .ok (some true)
      else if normalized ∈ [text "0", text "false", text "no", text "not-ready"] then
        .ok (some false)
      else unreadable
  | some _ => unreadable

/-- A normalised identity. Its version is always 1; empty lists stand for absent ones. -/
structure Identity where
  ready : Option Bool
  strings : Properties JSString
  capabilities : List SimpleObject
  protocols : List SimpleObject
  extra : Option (Properties JsonValue)

/-- The result of `validateAgentIdentityMetadata`. -/
structure Validation where
  errors : List JSString
  identity : Option Identity

def Validation.ok (validation : Validation) : Bool := validation.errors.isEmpty

/-- `value === 1 || value === '1'`. -/
def isVersionOne : Option JsonValue → Bool
  | some (.number n) => n = .finite 1
  | some (.string s) => s = text "1"
  | _ => false

/-- The object branch of `validateAgentIdentityMetadata`, as a function of how the object's
properties read. -/
def validateProperties (read : JSString → Option JsonValue) : Validation :=
  let version := (present (read (text "version"))).or (read (text "v"))
  let versionErrors := if isVersionOne version then [] else [text "version must be 1"]
  let (readyErrors, ready) :=
    match normalizeBoolean (read (text "ready")) (text "ready") with
    | .ok ready => ([], ready)
    | .error error => ([error], none)
  let sourceField (field : JSString) : Option JsonValue :=
    if field = text "skill" then (present (read field)).or (read (text "skillPath"))
    else read field
  let (stringErrors, strings) := collectStringFields sourceField id optionalStringFields
  let (capabilityErrors, capabilities) := normalizeCapabilities (read (text "capabilities"))
  let (protocolErrors, protocols) :=
    normalizeProtocols ((present (read (text "protocols"))).or (read (text "protocol")))
  let hasIdentitySignal :=
    optionalStringFields.any (fun field => (getProperty strings field).any (!·.isEmpty)) ||
      ready.isSome || !capabilities.isEmpty || !protocols.isEmpty
  let signalErrors :=
    if hasIdentitySignal then [] else [text "metadata must include at least one identity field"]
  let (extraErrors, extra) :=
    match present (read (text "extra")) with
    | none => ([], none)
    | some (.object members) => ([], some members)
    | some _ => ([text "extra must be an object when provided"], none)
  { errors := versionErrors ++ readyErrors ++ stringErrors ++ capabilityErrors ++
      protocolErrors ++ signalErrors ++ extraErrors
    identity := some { ready, strings, capabilities, protocols, extra } }

def validateAgentIdentityMetadata : JsonValue → Validation
  | .object members => validateProperties (getProperty members)
  | _ => { errors := [text "metadata must be a JSON object"], identity := none }

end AgentResolver
