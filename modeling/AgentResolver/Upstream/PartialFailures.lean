import AgentResolver.Interaction.Machine
import AgentResolver.Sequence.FirstSeen
import AgentResolver.Upstream.DnsSource

/-!
# Partial failures of the DNS source

`resolveName` of the DNS source starts three lookups and waits for all of them. Here they complete
one by one, in any order, and the answer is built when the last one has (`Lookups.answer`). Read
`ReportsOutcomes` first: what the answer says about the three outcomes, each type by its own.
-/

namespace AgentResolver

open JavaScript
open Interaction Sequence

/-! ## The three lookups in flight -/

/-- The completion of a lookup. -/
inductive LookupEvent where
  | a (outcome : DnsOutcome JSString)
  | aaaa (outcome : DnsOutcome JSString)
  | txt (outcome : DnsOutcome TxtRecord)

/-- The answers that `Promise.all` has so far. -/
structure Lookups where
  a : Option (LookupAnswer JSString)
  aaaa : Option (LookupAnswer JSString)
  txt : Option (LookupAnswer TxtRecord)

def Lookups.initial : Lookups := ⟨none, none, none⟩

/-- A lookup completes once. Its outcome goes through `resolveA`, `resolveAAAA` or `resolveTxt`,
which answer a rejection too. -/
def completeLookup (lookups : Lookups) : LookupEvent → Option Lookups
  | .a outcome =>
      if lookups.a.isSome then none
      else some { lookups with a := some (lookupAnswer (text "A_LOOKUP_ERROR") outcome) }
  | .aaaa outcome =>
      if lookups.aaaa.isSome then none
      else some { lookups with aaaa := some (lookupAnswer (text "AAAA_LOOKUP_ERROR") outcome) }
  | .txt outcome =>
      if lookups.txt.isSome then none
      else some { lookups with txt := some (lookupAnswer (text "TXT_LOOKUP_ERROR") outcome) }

/-- The answer, once every lookup has completed. -/
def Lookups.answer (servers : Option (List JSString)) (lookups : Lookups) : Option NameAnswer :=
  match lookups.a, lookups.aaaa, lookups.txt with
  | some a, some aaaa, some txt => some (DnsResolver.mergeLookups servers a aaaa txt)
  | _, _, _ => none

/-- Two completions have the same effect in either order. -/
theorem complete_lookup_comm (lookups : Lookups) (first second : LookupEvent) :
    (completeLookup lookups first >>= fun next => completeLookup next second) =
      (completeLookup lookups second >>= fun next => completeLookup next first) := by
  obtain ⟨a, aaaa, txt⟩ := lookups
  cases first with
  | a outcome =>
      cases second with
      | a other => cases a <;> rfl
      | aaaa other => cases a <;> cases aaaa <;> rfl
      | txt other => cases a <;> cases txt <;> rfl
  | aaaa outcome =>
      cases second with
      | a other => cases a <;> cases aaaa <;> rfl
      | aaaa other => cases aaaa <;> rfl
      | txt other => cases aaaa <;> cases txt <;> rfl
  | txt outcome =>
      cases second with
      | a other => cases a <;> cases txt <;> rfl
      | aaaa other => cases aaaa <;> cases txt <;> rfl
      | txt other => cases txt <;> rfl

/-! ## One outcome -/

section

variable {α : Type}

/-- The records of a lookup: none when it was rejected. -/
def DnsOutcome.list : DnsOutcome α → List α
  | .records list => list
  | .rejected _ _ => []

/-- A rejection with a code that does not stand for absence, or with none. -/
def DnsOutcome.IsFailure : DnsOutcome α → Prop
  | .records _ => False
  | .rejected code _ =>
      code ≠ some (text "ENODATA") ∧ code ≠ some (text "ENOTFOUND") ∧ code ≠ some (text "NOTFOUND")

instance (outcome : DnsOutcome α) : Decidable outcome.IsFailure :=
  match outcome with
  | .records _ => inferInstanceAs (Decidable False)
  | .rejected code _ => inferInstanceAs (Decidable (code ≠ some (text "ENODATA") ∧
      code ≠ some (text "ENOTFOUND") ∧ code ≠ some (text "NOTFOUND")))

/-- The status of a record type, from the outcome of its own lookup. -/
def DnsOutcome.status (outcome : DnsOutcome α) : JSString :=
  if outcome.IsFailure then text "error"
  else if outcome.list.isEmpty then text "no_records" else text "ok"

/-- The entry for a failure, under the record type. -/
def DnsOutcome.issues (recordType : JSString) (outcome : DnsOutcome α) : List LookupIssue :=
  match outcome with
  | .records _ => []
  | .rejected code message =>
      if outcome.IsFailure then
        [⟨some recordType, some (code.getD (recordType ++ text "_LOOKUP_ERROR")), some message⟩]
      else []

variable {outcome : DnsOutcome α}

/-- The codes of absence. -/
theorem is_no_record_iff {code : Option JSString} :
    isNoRecord code = true ↔ code = some (text "ENODATA") ∨ code = some (text "ENOTFOUND") ∨
      code = some (text "NOTFOUND") := by
  cases code with
  | none => simp [isNoRecord]
  | some code => simp [isNoRecord, noRecordCodes]

/-- A rejection is answered as absent or as failed. -/
theorem is_failure_rejected {code : Option JSString} {message : JSString} :
    (DnsOutcome.rejected code message : DnsOutcome α).IsFailure ↔ isNoRecord code = false := by
  rw [← Bool.not_eq_true, is_no_record_iff]
  simp [DnsOutcome.IsFailure]

/-- The answer of a resolve method says what its lookup did. -/
theorem lookup_answer_reports (recordType : JSString) (outcome : DnsOutcome α) :
    (lookupAnswer (recordType ++ text "_LOOKUP_ERROR") outcome).records = outcome.list ∧
      (lookupAnswer (recordType ++ text "_LOOKUP_ERROR") outcome).status = outcome.status ∧
      DnsResolver.issueOf recordType (lookupAnswer (recordType ++ text "_LOOKUP_ERROR") outcome) =
        outcome.issues recordType := by
  cases outcome with
  | records list =>
      cases list with
      | nil => exact ⟨rfl, rfl, rfl⟩
      | cons first rest => exact ⟨rfl, rfl, rfl⟩
  | rejected code message =>
      cases hcode : isNoRecord code with
      | true =>
          have hfailure : ¬ (DnsOutcome.rejected code message : DnsOutcome α).IsFailure := by
            simp [is_failure_rejected, hcode]
          rw [lookupAnswer, if_pos hcode, DnsOutcome.status, if_neg hfailure, DnsOutcome.issues,
            if_neg hfailure]
          exact ⟨rfl, rfl, rfl⟩
      | false =>
          have hfailure : (DnsOutcome.rejected code message : DnsOutcome α).IsFailure := by
            simp [is_failure_rejected, hcode]
          rw [lookupAnswer, if_neg (by simp [hcode]), DnsOutcome.status, if_pos hfailure,
            DnsOutcome.issues, if_pos hfailure]
          exact ⟨rfl, rfl, rfl⟩

end

/-! ## The three outcomes together -/

/-- The nonempty A and AAAA records, in order. -/
def addressRecords (a aaaa : DnsOutcome JSString) : List JSString :=
  (a.list ++ aaaa.list).filter fun record => !record.isEmpty

/-- What the answer says about the three outcomes. -/
structure ReportsOutcomes (a aaaa : DnsOutcome JSString) (txt : DnsOutcome TxtRecord)
    (answer : NameAnswer) : Prop where
  records : answer.records = some ⟨some a.list, some aaaa.list, some txt.list⟩
  recordStatus : answer.recordStatus = some ⟨some a.status, some aaaa.status, some txt.status⟩
  errors : answer.errors =
    some (a.issues (text "A") ++ aaaa.issues (text "AAAA") ++ txt.issues (text "TXT"))
  addresses : ∃ addresses, answer.addresses = some addresses ∧ addresses.Nodup ∧
    (∀ record, record ∈ addresses ↔ record ∈ addressRecords a aaaa) ∧
    addresses.Pairwise fun first second =>
      (addressRecords a aaaa).idxOf first < (addressRecords a aaaa).idxOf second
  ok : answer.status = some (text "ok") ↔ answer.addresses ≠ some [] ∨ txt.list ≠ []
  lookupError : answer.status = some (text "lookup_error") ↔
    (answer.addresses = some [] ∧ txt.list = []) ∧ answer.errors ≠ some []
  noRecords : answer.status = some (text "no_records") ↔
    (answer.addresses = some [] ∧ txt.list = []) ∧ answer.errors = some []

/-- `unique` is the loop that appends new elements, after the empty ones are dropped. -/
theorem unique_eq (values : List JSString) :
    unique values = firstSeen (values.filter fun value => !value.isEmpty) := by
  have hstep : (fun seen value => if value ∈ seen then seen else seen ++ [value]) =
      @insertNew JSString _ := by
    funext seen value
    by_cases h : value ∈ seen
    · rw [insertNew, if_pos h, if_pos h]
    · rw [insertNew, if_neg h, if_neg h]
  rw [unique, distinctValues, firstSeen, hstep]

/-- The merged status, from what is merged. -/
theorem merged_status {addresses : List JSString} {texts : List TxtRecord}
    {errors : List LookupIssue} {status : JSString}
    (h : status = if !addresses.isEmpty || !texts.isEmpty then text "ok"
      else if errors.isEmpty then text "no_records" else text "lookup_error") :
    (status = text "ok" ↔ addresses ≠ [] ∨ texts ≠ []) ∧
      (status = text "lookup_error" ↔ (addresses = [] ∧ texts = []) ∧ errors ≠ []) ∧
      (status = text "no_records" ↔ (addresses = [] ∧ texts = []) ∧ errors = []) := by
  have hok : text "ok" ≠ text "lookup_error" ∧ text "ok" ≠ text "no_records" := by decide
  have herror : text "lookup_error" ≠ text "no_records" := by decide
  cases addresses with
  | cons first rest => simp [h, hok]
  | nil =>
      cases texts with
      | cons first rest => simp [h, hok]
      | nil =>
          cases errors with
          | nil => simp [h, hok.2.symm, herror.symm]
          | cons first rest => simp [h, hok.1.symm, herror]

/-- The answer of `resolveName` reports the outcomes of its lookups. -/
theorem resolve_name_reports (dns : DnsResolver) (servers : Option (List JSString))
    (name : JSString) :
    ReportsOutcomes (dns.resolve4 name) (dns.resolve6 name) (dns.resolveTxt name)
      (dns.resolveName servers name) := by
  -- Each lookup is replaced by its own report, and the members are computed from the reports.
  obtain ⟨hARecords, hAStatus, hAIssues⟩ := lookup_answer_reports (text "A") (dns.resolve4 name)
  obtain ⟨hAAAARecords, hAAAAStatus, hAAAAIssues⟩ :=
    lookup_answer_reports (text "AAAA") (dns.resolve6 name)
  obtain ⟨hTXTRecords, hTXTStatus, hTXTIssues⟩ :=
    lookup_answer_reports (text "TXT") (dns.resolveTxt name)
  have hrecords : (dns.resolveName servers name).records = some ⟨some (dns.resolve4 name).list,
      some (dns.resolve6 name).list, some (dns.resolveTxt name).list⟩ := by
    rw [← hARecords, ← hAAAARecords, ← hTXTRecords]
    rfl
  have haddresses : (dns.resolveName servers name).addresses =
      some (firstSeen (addressRecords (dns.resolve4 name) (dns.resolve6 name))) := by
    rw [addressRecords, ← unique_eq, ← hARecords, ← hAAAARecords]
    rfl
  have herrors : (dns.resolveName servers name).errors =
      some ((dns.resolve4 name).issues (text "A") ++ (dns.resolve6 name).issues (text "AAAA") ++
        (dns.resolveTxt name).issues (text "TXT")) := by
    rw [← hAIssues, ← hAAAAIssues, ← hTXTIssues]
    rfl
  have hstatus : ∃ status, (dns.resolveName servers name).status = some status ∧
      status = if !(firstSeen (addressRecords (dns.resolve4 name)
          (dns.resolve6 name))).isEmpty || !(dns.resolveTxt name).list.isEmpty then text "ok"
        else if ((dns.resolve4 name).issues (text "A") ++
          (dns.resolve6 name).issues (text "AAAA") ++
          (dns.resolveTxt name).issues (text "TXT")).isEmpty then text "no_records"
        else text "lookup_error" := by
    refine ⟨_, rfl, ?_⟩
    rw [← hAIssues, ← hAAAAIssues, ← hTXTIssues, addressRecords, ← unique_eq, ← hARecords,
      ← hAAAARecords, ← hTXTRecords]
    rfl
  obtain ⟨status, hsome, hstatus⟩ := hstatus
  obtain ⟨hok, hlookupError, hnoRecords⟩ := merged_status hstatus
  refine ⟨hrecords, ?_, herrors, ⟨_, haddresses, nodup_first_seen _, fun _ => mem_first_seen,
    first_seen_order _⟩, ?_, ?_, ?_⟩
  · rw [← hAStatus, ← hAAAAStatus, ← hTXTStatus]
    rfl
  · rw [hsome, haddresses]
    simpa using hok
  · rw [hsome, haddresses, herrors]
    simpa only [Option.some.injEq, ne_eq] using hlookupError
  · rw [hsome, haddresses, herrors]
    simpa only [Option.some.injEq] using hnoRecords

/-- Whatever the three lookups do and in whatever order they complete, the source answers, and
its answer reports each outcome by its own. -/
theorem partial_failures_isolated (dns : DnsResolver) (servers : Option (List JSString))
    (name : JSString) (events : List LookupEvent)
    (horder : events.Perm [.a (dns.resolve4 name), .aaaa (dns.resolve6 name),
      .txt (dns.resolveTxt name)]) :
    ∃ lookups answer, runEvents completeLookup .initial events = some lookups ∧
      lookups.answer servers = some answer ∧
      (∀ trace, (dns.source servers).resolveName.map (fun resolve => resolve trace name) =
        some (.ok answer)) ∧
      ReportsOutcomes (dns.resolve4 name) (dns.resolve6 name) (dns.resolveTxt name) answer := by
  have hrun : runEvents completeLookup .initial [.a (dns.resolve4 name),
      .aaaa (dns.resolve6 name), .txt (dns.resolveTxt name)] =
        some ⟨some (dns.resolveA name), some (dns.resolveAAAA name),
          some (dns.resolveTxtRecords name)⟩ := rfl
  rw [← run_events_perm complete_lookup_comm horder] at hrun
  exact ⟨_, _, hrun, rfl, fun _ => rfl, resolve_name_reports dns servers name⟩

/-- TXT answers first, then AAAA fails, and A is absent. -/
theorem partial_failures_isolated_example :
    let dns : DnsResolver := ⟨fun _ => .rejected (some (text "ENODATA")) [],
      fun _ => .rejected (some (text "ESERVFAIL")) [], fun _ => .records []⟩
    ∃ lookups answer,
      runEvents completeLookup .initial [.txt (dns.resolveTxt []), .aaaa (dns.resolve6 []),
        .a (dns.resolve4 [])] = some lookups ∧
      lookups.answer none = some answer ∧
      answer.status = some (text "lookup_error") := by
  intro dns
  obtain ⟨lookups, answer, hrun, hanswer, -, hreports⟩ := partial_failures_isolated dns none []
    [.txt (dns.resolveTxt []), .aaaa (dns.resolve6 []), .a (dns.resolve4 [])]
    (by
      refine (List.Perm.swap _ _ _).trans ?_
      refine (List.Perm.cons _ (List.Perm.swap _ _ _)).trans ?_
      exact List.Perm.swap _ _ _)
  refine ⟨lookups, answer, hrun, hanswer, hreports.lookupError.mpr ⟨⟨?_, rfl⟩, ?_⟩⟩
  · obtain ⟨addresses, haddresses, -, hmem, -⟩ := hreports.addresses
    refine haddresses.trans (congrArg some (List.eq_nil_iff_forall_not_mem.mpr ?_))
    intro record h
    exact List.not_mem_nil ((hmem record).mp h)
  · rw [hreports.errors]
    decide

end AgentResolver
