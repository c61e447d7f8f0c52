import AgentResolver.Upstream.DnsSource

/-!
# The mock source

`MockHandshakeSource` of `src/upstream/mock-source.js`, which answers from the properties of an
object. Its logs of the names that were asked for are left out: no lookup reads them.
-/

namespace AgentResolver

open JavaScript

/-- A value of `recordsByName`. An array is a TXT list, and of an `Error` the code and the message
matter. -/
inductive MockValue where
  | null
  | array (records : List TxtRecord)
  | recordSet (A AAAA : Option (List JSString)) (TXT records : Option (List TxtRecord))
  | failure (code : Option JSString) (message : JSString)

/-- `normalizeValue` of a value that is not an `Error`, a missing one counting as `null`. -/
def normalizeValue : Option MockValue → RecordSet
  | some (.array records) => ⟨[], [], records⟩
  | some (.recordSet A AAAA TXT records) =>
      ⟨A.getD [], AAAA.getD [], (TXT.or records).getD []⟩
  | some .null | some (.failure _ _) | none => ⟨[], [], []⟩

namespace MockHandshakeSource

variable (recordsByName : Properties MockValue)

def getValue (name : JSString) : Option MockValue := getProperty recordsByName name

def resolveTxt (name : JSString) : TxtAnswer :=
  match getValue recordsByName name with
  | some (.failure code message) =>
      ⟨text "error", some [], some (code.getD (text "TXT_LOOKUP_ERROR")), some message⟩
  | value =>
      let records := (normalizeValue value).TXT
      ⟨if records.isEmpty then text "no_records" else text "ok", some records, none, none⟩

def sourceInfo : SourceInfo := ⟨text "mock", some []⟩

def resolveName (name : JSString) : NameAnswer :=
  match getValue recordsByName name with
  | some (.failure code message) =>
      { status := some (text "error")
        resolved := some false
        addresses := some []
        address := none
        recordType := none
        records := some ⟨some [], some [], some []⟩
        recordStatus := none
        source := some sourceInfo
        errors := some [⟨none, some (code.getD (text "LOOKUP_ERROR")), some message⟩] }
  | value =>
      let records := normalizeValue value
      let addresses := unique (records.A ++ records.AAAA)
      { status :=
          some (if !addresses.isEmpty || !records.TXT.isEmpty then text "ok"
            else text "no_records")
        resolved := some !addresses.isEmpty
        addresses := some addresses
        address := addresses.head?
        recordType :=
          if !records.A.isEmpty then some (text "A")
          else if !records.AAAA.isEmpty then some (text "AAAA") else none
        records := some ⟨some records.A, some records.AAAA, some records.TXT⟩
        recordStatus := none
        source := some sourceInfo
        errors := some [] }

/-- `MockHandshakeSource` as a lookup source. -/
def source : Source where
  resolveName := some fun _ name => .ok (resolveName recordsByName name)
  resolveTxt := some fun _ name => .ok (resolveTxt recordsByName name)
  sourceInfo := some sourceInfo

end MockHandshakeSource

end AgentResolver
