import AgentResolver.Metadata.Schema

/-!
# TXT record parsing

`parseTxtRecords` and its helpers, after `src/metadata/parse.js`. A value is recognised as
versioned metadata (`hns-agent=v…` or `agent-identity:v…=`), as a HeadlessProfile bridge record
(a known key before the first `:` or `=`), or ignored. Versioned values are tried one by one and
the first valid one wins; bridge records are only read when there is no versioned value at all,
and then all of them are folded into one metadata object.
-/

namespace AgentResolver

open JavaScript

/-- An element of the array of TXT records. -/
inductive TxtRecord where
  | segments (parts : List JSString)
  | single (value : JSString)
  | other
  deriving DecidableEq

def joinTxtRecord : TxtRecord → JSString
  | .segments parts => join parts []
  | .single value => value
  | .other => []

/-- The match of `/^hns-agent\s*=\s*v([^;\s]+)/i`: the captured version. -/
def hnsAgentMatch (value : JSString) : Option JSString :=
  let name := text "hns-agent"
  if (value.take name.length).map asciiLower = name then
    match (value.drop name.length).dropWhile isWhitespace with
    | [] => none
    | c :: rest =>
        if c = unit '=' then
          match rest.dropWhile isWhitespace with
          | [] => none
          | v :: tail =>
              let version := tail.takeWhile fun c => !(c == unit ';' || isWhitespace c)
              if asciiLower v = unit 'v' ∧ version ≠ [] then some version else none
        else none
  else none

/-- The match of `/^agent-identity:v([^=]+)=/`: the captured version. -/
def metadataPrefixMatch (value : JSString) : Option JSString :=
  let start := text "agent-identity:v"
  if startsWith value start then
    let tail := value.drop start.length
    let version := tail.takeWhile (· != unit '=')
    if version ≠ [] ∧ version.length < tail.length then some version else none
  else none

/-- One iteration of the loop of `parseKeyValuePayload`. Assigning a string to `__proto__` has
no effect. -/
def applySegment (metadata : Properties JsonValue) (segment : JSString) : Properties JsonValue :=
  let trimmed := trim segment
  match indexOf trimmed (unit '=') with
  | none => metadata
  | some index =>
      let key := trim (trimmed.take index)
      let value := trim (trimmed.drop (index + 1))
      if key.isEmpty ∨ key = text "hns-agent" then metadata
      else if key = text "protocol" ∨ key = text "protocols" then
        setProperty metadata (text "protocols") (.string value)
      else if key = text "capability" ∨ key = text "capabilities" then
        setProperty metadata (text "capabilities") (.string value)
      else if key = text "skill" ∨ key = text "skillPath" then
        setProperty metadata (text "skill") (.string value)
      else if key = text "__proto__" then metadata
      else setProperty metadata key (.string value)

def parseKeyValuePayload (payload : JSString) (base : Properties JsonValue) :
    Properties JsonValue :=
  (split payload (unit ';')).foldl applySegment base

/-- The object `{version: 1}`. -/
def versionOne : Properties JsonValue := [(text "version", .number (.finite 1))]

def parseAgentIdentityPayload (json : Json) (payload : JSString) : Except JSError JsonValue :=
  let trimmed := trim payload
  if trimmed.isEmpty then .error ⟨text "metadata payload is empty"⟩
  else if startsWith trimmed [unit '\x7b'] then do
    match ← json.parse trimmed with
    | .object members => .ok (.object members)
    | _ => .error ⟨text "metadata JSON must be an object"⟩
  else .ok (.object (parseKeyValuePayload trimmed versionOne))

/-! ## Bridge records -/

def headlessProfileFields : List JSString :=
  [text "agent-manifest", text "manifest", text "skill-md", text "skill",
    text "agent-capabilities", text "arp"]

def firstDelimiterIndex (value : JSString) : Option Nat :=
  match indexOf value (unit ':'), indexOf value (unit '=') with
  | none, equalsIndex => equalsIndex
  | colonIndex, none => colonIndex
  | some colonIndex, some equalsIndex => some (min colonIndex equalsIndex)

/-- The text before the first delimiter, trimmed and lower-cased. -/
def delimitedKey (value : JSString) (index : Nat) : JSString :=
  toLowerCase (trim (value.take index))

def getHeadlessProfileKey (value : JSString) : Option JSString :=
  match firstDelimiterIndex value with
  | none => none
  | some index =>
      let key := delimitedKey value index
      if key ∈ headlessProfileFields then some key else none

def getDelimitedValue (value : JSString) : Option JSString :=
  (firstDelimiterIndex value).map fun index => trim (value.drop (index + 1))

/-- `splitCommaListValue` of a property of the metadata object, as a list of values. -/
def splitCommaListValue : Option JsonValue → List JsonValue
  | some (.array items) => items
  | some (.string value) => (commaItems value).map .string
  | _ => []

/-- `current.includes(item)` for a string item. -/
def includesString (current : List JsonValue) (item : JSString) : Bool :=
  current.any fun
    | .string s => s = item
    | _ => false

/-- Appends a string unless the list has it. -/
def pushUnique (current : List JsonValue) (item : JSString) : List JsonValue :=
  if includesString current item then current else current ++ [.string item]

def appendUniqueListValue (existing : Option JsonValue) (value : JSString) : JsonValue :=
  .array (pushUnique (splitCommaListValue existing) value)

def appendUniqueListValues (existing : Option JsonValue) (value : JSString) : JsonValue :=
  .array ((commaItems value).foldl pushUnique (splitCommaListValue existing))

/-- `applyHeadlessProfileRecord`, with the metadata object as a value that is returned. -/
def applyHeadlessProfileRecord (value : JSString) (metadata : Properties JsonValue) :
    Properties JsonValue :=
  match firstDelimiterIndex value with
  | none => metadata
  | some index =>
      let key := delimitedKey value index
      let recordValue := trim (value.drop (index + 1))
      if key ∉ headlessProfileFields ∨ recordValue.isEmpty then metadata
      else if key = text "agent-manifest" ∨ key = text "manifest" then
        setProperty metadata (text "endpoint") (.string recordValue)
      else if key = text "skill-md" ∨ key = text "skill" then
        setProperty metadata (text "skill") (.string recordValue)
      else if key = text "agent-capabilities" then
        setProperty metadata (text "capabilities")
          (appendUniqueListValues (getProperty metadata (text "capabilities")) recordValue)
      else if key = text "arp" then
        setProperty metadata (text "protocols")
          (appendUniqueListValue (getProperty metadata (text "protocols")) (text "arp"))
      else metadata

/-- The three variables of the loop of `parseHeadlessProfileRecords`. -/
structure BridgeState where
  metadata : Properties JsonValue
  records : List JSString
  malformedMessage : Option JSString

/-- One iteration of that loop. -/
def bridgeStep (state : BridgeState) (value : JSString) : BridgeState :=
  match getHeadlessProfileKey value with
  | none => state
  | some _ =>
      let state := { state with records := state.records ++ [value] }
      if value.length > maxTxtValueLength then
        { state with
          malformedMessage :=
            state.malformedMessage.or (some (text "HeadlessProfile TXT value is too long")) }
      else if (getDelimitedValue value).all List.isEmpty then
        { state with
          malformedMessage :=
            state.malformedMessage.or (some (text "HeadlessProfile TXT value is empty")) }
      else { state with metadata := applyHeadlessProfileRecord value state.metadata }

/-- The result of `parseHeadlessProfileRecords` when there is a bridge record. -/
inductive BridgeResult where
  | malformed (message : JSString) (records : List JSString)
  | found (identity : Identity) (record : JSString) (records : List JSString)

/-- `validation.ok` decides between the identity and the joined errors. -/
def validationResult {α : Type} (validation : Validation) (found : Identity → α)
    (malformed : JSString → α) : α :=
  match validation.ok, validation.identity with
  | true, some identity => found identity
  | _, _ => malformed (join validation.errors (text "; "))

def parseHeadlessProfileRecords (values : List JSString) : Option BridgeResult :=
  let state := values.foldl bridgeStep ⟨versionOne, [], none⟩
  if state.records.isEmpty then none
  else
    match state.malformedMessage with
    | some message => some (.malformed message state.records)
    | none =>
        some (validationResult (validateAgentIdentityMetadata (.object state.metadata))
          (fun identity => .found identity (join state.records [unit '\n']) state.records)
          (fun message => .malformed message state.records))

/-! ## Versioned records -/

/-- The result of `parseMetadataValue`; every variant also carries the record in the source, where
it is always the value itself. -/
inductive ParsedValue where
  | found (identity : Identity)
  | malformed (message : JSString)
  | unsupported (message : JSString)
  | ignored

def parseMetadataValue (json : Json) (value : JSString) : ParsedValue :=
  match hnsAgentMatch value with
  | some version =>
      if version ≠ text "1" then
        .unsupported (text "unsupported hns-agent metadata version: " ++ version)
      else if value.length > maxTxtValueLength then
        .malformed (text "metadata TXT value is too long")
      else
        validationResult
          (validateAgentIdentityMetadata (.object (parseKeyValuePayload value versionOne)))
          .found .malformed
  | none =>
      if !startsWith value metadataPrefix then
        match metadataPrefixMatch value with
        | some version =>
            .unsupported (text "unsupported agent identity metadata version: " ++ version)
        | none => .ignored
      else if value.length > maxTxtValueLength then
        .malformed (text "metadata TXT value is too long")
      else
        match parseAgentIdentityPayload json (value.drop metadataPrefix.length) with
        | .error error => .malformed (text "metadata could not be parsed: " ++ error.message)
        | .ok parsed => validationResult (validateAgentIdentityMetadata parsed) .found .malformed

/-! ## Record lists -/

/-- An entry of the `malformed` and `unsupported` diagnostics. -/
structure Diagnostic where
  message : JSString
  record : JSString
  deriving DecidableEq

/-- The `status` of a parse, which is also the status of an attempt. -/
inductive MetadataStatus where
  | found
  | malformedRecords
  | unsupportedRecords
  | lookupError
  | noCompatibleRecords
  | noRecords
  deriving DecidableEq

/-- The result of `parseTxtRecords`. -/
structure ParseResult where
  status : MetadataStatus
  identity : Option Identity
  record : Option JSString
  ignored : List JSString
  malformed : List Diagnostic
  unsupported : List Diagnostic

def emptyParseResult : ParseResult where
  status := .noCompatibleRecords
  identity := none
  record := none
  ignored := []
  malformed := []
  unsupported := []

/-- The code after the loop: the bridge fallback and the final status. `values` are the joined
records. -/
def finishParse (values : List JSString) (result : ParseResult) : ParseResult :=
  let bridge :=
    if result.malformed.isEmpty && result.unsupported.isEmpty then
      parseHeadlessProfileRecords values
    else none
  match bridge with
  | some (.found identity record records) =>
      { result with
        status := .found
        identity := some identity
        record := some record
        ignored := result.ignored.filter fun value => !records.contains value }
  | some (.malformed message records) =>
      { result with
        status := .malformedRecords
        malformed := result.malformed ++ [⟨message, join records [unit '\n']⟩]
        ignored := result.ignored.filter fun value => !records.contains value }
  | none =>
      if !result.malformed.isEmpty then { result with status := .malformedRecords }
      else if !result.unsupported.isEmpty then { result with status := .unsupportedRecords }
      else result

/-- The loop over the joined records, with the result object as accumulator: it returns at the
first valid versioned record and hands over to `finishParse` at the end. -/
def parseLoop (json : Json) (values : List JSString) : List JSString → ParseResult → ParseResult
  | [], result => finishParse values result
  | value :: rest, result =>
      match parseMetadataValue json value with
      | .found identity =>
          { result with status := .found, identity := some identity, record := some value }
      | .malformed message =>
          parseLoop json values rest
            { result with malformed := result.malformed ++ [⟨message, value⟩] }
      | .unsupported message =>
          parseLoop json values rest
            { result with unsupported := result.unsupported ++ [⟨message, value⟩] }
      | .ignored => parseLoop json values rest { result with ignored := result.ignored ++ [value] }

def parseTxtRecords (json : Json) (records : List TxtRecord) : ParseResult :=
  let values := records.map joinTxtRecord
  parseLoop json values values emptyParseResult

end AgentResolver
