import AgentResolver.Environment

/-!
# The DNS source

`DnsHandshakeSource` of `src/upstream/dns-source.js` over a DNS resolver that is given by the
outcome of each of its three lookups at each name.
-/

namespace AgentResolver

open JavaScript

/-- The outcome of one DNS lookup. A rejection carries `error?.code` and the text that is used as
its message, `error?.message ?? String(error)`. -/
inductive DnsOutcome (α : Type) where
  | records (list : List α)
  | rejected (code : Option JSString) (message : JSString)

/-- The three lookups of a `Resolver` of `node:dns/promises`. -/
structure DnsResolver where
  resolve4 : JSString → DnsOutcome JSString
  resolve6 : JSString → DnsOutcome JSString
  resolveTxt : JSString → DnsOutcome TxtRecord

def noRecordCodes : List JSString := [text "ENODATA", text "ENOTFOUND", text "NOTFOUND"]

def isNoRecord (code : Option JSString) : Bool := code.any (· ∈ noRecordCodes)

/-- `[...new Set(values)]`: the values in first-seen order. -/
def distinctValues (values : List JSString) : List JSString :=
  values.foldl (fun seen value => if value ∈ seen then seen else seen ++ [value]) []

def unique (values : List JSString) : List JSString :=
  distinctValues (values.filter fun value => !value.isEmpty)

/-- The answer of one of the three resolve methods. -/
structure LookupAnswer (α : Type) where
  status : JSString
  records : List α
  code : Option JSString
  message : Option JSString

/-- The common body of `resolveA`, `resolveAAAA` and `resolveTxt`, with the code that stands in
for a missing one. -/
def lookupAnswer {α : Type} (defaultCode : JSString) : DnsOutcome α → LookupAnswer α
  | .records list =>
      ⟨if list.isEmpty then text "no_records" else text "ok", list, none, none⟩
  | .rejected code message =>
      if isNoRecord code then ⟨text "no_records", [], code, none⟩
      else ⟨text "error", [], some (code.getD defaultCode), some message⟩

namespace DnsResolver

variable (dns : DnsResolver)

def resolveA (name : JSString) : LookupAnswer JSString :=
  lookupAnswer (text "A_LOOKUP_ERROR") (dns.resolve4 name)

def resolveAAAA (name : JSString) : LookupAnswer JSString :=
  lookupAnswer (text "AAAA_LOOKUP_ERROR") (dns.resolve6 name)

def resolveTxtRecords (name : JSString) : LookupAnswer TxtRecord :=
  lookupAnswer (text "TXT_LOOKUP_ERROR") (dns.resolveTxt name)

/-- The entry of `errors` for a lookup, if its status is `error`. -/
def issueOf {α : Type} (recordType : JSString) (answer : LookupAnswer α) : List LookupIssue :=
  if answer.status = text "error" then [⟨some recordType, answer.code, answer.message⟩] else []

/-- `resolveName` behind its `Promise.all`: the answer from those of the three lookups. -/
def mergeLookups (servers : Option (List JSString)) (a aaaa : LookupAnswer JSString)
    (txt : LookupAnswer TxtRecord) : NameAnswer :=
  let addresses := unique (a.records ++ aaaa.records)
  let hasRecords := !addresses.isEmpty || !txt.records.isEmpty
  let errors := issueOf (text "A") a ++ issueOf (text "AAAA") aaaa ++ issueOf (text "TXT") txt
  { status :=
      some (if hasRecords then text "ok"
        else if errors.isEmpty then text "no_records" else text "lookup_error")
    resolved := some !addresses.isEmpty
    addresses := some addresses
    address := addresses.head?
    recordType :=
      if !a.records.isEmpty then some (text "A")
      else if !aaaa.records.isEmpty then some (text "AAAA") else none
    records := some ⟨some a.records, some aaaa.records, some txt.records⟩
    recordStatus := some ⟨some a.status, some aaaa.status, some txt.status⟩
    source := some ⟨text "dns", some (servers.getD [])⟩
    errors := some errors }

/-- `DnsHandshakeSource.resolveName`. -/
def resolveName (servers : Option (List JSString)) (name : JSString) : NameAnswer :=
  mergeLookups servers (dns.resolveA name) (dns.resolveAAAA name) (dns.resolveTxtRecords name)

/-- `DnsHandshakeSource` as a lookup source. Its lookups never reject. -/
def source (servers : Option (List JSString)) : Source where
  resolveName := some fun _ name => .ok (dns.resolveName servers name)
  resolveTxt := some fun _ name =>
    let answer := dns.resolveTxtRecords name
    .ok ⟨answer.status, some answer.records, answer.code, answer.message⟩
  sourceInfo := some ⟨text "dns", some (servers.getD [])⟩

end DnsResolver

end AgentResolver
