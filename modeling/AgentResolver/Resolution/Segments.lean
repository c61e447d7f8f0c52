import AgentResolver.Interaction.Agreement
import AgentResolver.Resolver

/-!
# The segments of TXT records

DNS delivers a TXT record in segments, and where it is cut is up to the server. Joining the segments
of every record before the resolver sees it changes nothing but the records that the result repeats:
`resolve_joined`, for any source.
-/

namespace AgentResolver

open JavaScript
open Interaction

variable {json : Json} {platform : Platform} {options : ResolverOptions} {source : Source}
  {name : JSString}

/-! ## Joining records wherever they stand -/

/-- The record in one segment. -/
def TxtRecord.joined (record : TxtRecord) : TxtRecord := .single (joinTxtRecord record)

/-- The records of a list, each in one segment. -/
def joinedRecords (records : List TxtRecord) : List TxtRecord := records.map TxtRecord.joined

def TxtAnswer.joined (answer : TxtAnswer) : TxtAnswer :=
  { answer with records := answer.records.map joinedRecords }

def PartialRecords.joined (records : PartialRecords) : PartialRecords :=
  { records with TXT := records.TXT.map joinedRecords }

def NameAnswer.joined (answer : NameAnswer) : NameAnswer :=
  { answer with records := answer.records.map PartialRecords.joined }

/-- The source with the segments of its records joined. -/
def Source.joined (source : Source) : Source :=
  { source with
    resolveName := source.resolveName.map fun resolveName trace name =>
      (resolveName trace name).map NameAnswer.joined
    resolveTxt := source.resolveTxt.map fun resolveTxt trace name =>
      (resolveTxt trace name).map TxtAnswer.joined }

def RecordSet.joined (records : RecordSet) : RecordSet :=
  { records with TXT := joinedRecords records.TXT }

def DnsResult.joined (result : DnsResult) : DnsResult :=
  { result with records := result.records.joined }

def Attempt.joined (attempt : Attempt) : Attempt :=
  { attempt with records := attempt.records.map joinedRecords }

def MetadataResult.joined (result : MetadataResult) : MetadataResult :=
  { result with attempts := result.attempts.map Attempt.joined }

/-- The result with the segments of the records that it repeats joined. -/
def ResolveResult.joined (result : ResolveResult) : ResolveResult :=
  { result with
    records := result.records.joined
    attempts := result.attempts.map Attempt.joined }

@[simp] theorem is_empty_joined (records : List TxtRecord) :
    (joinedRecords records).isEmpty = records.isEmpty := List.isEmpty_map

@[simp] theorem parse_joined (json : Json) (records : List TxtRecord) :
    parseTxtRecords json (joinedRecords records) = parseTxtRecords json records := by
  have hvalues : (joinedRecords records).map joinTxtRecord = records.map joinTxtRecord := by
    rw [joinedRecords, List.map_map]
    exact List.map_congr_left fun record _ => rfl
  rw [parseTxtRecords, parseTxtRecords, hvalues]

/-! ## The lookup stage -/

/-- A value and the value with joined records. -/
abbrev Joins {α : Type} (joined : α → α) (a b : α) : Prop := b = joined a

theorem get_joined (records : Option (List TxtRecord)) :
    (records.map joinedRecords).getD [] = joinedRecords (records.getD []) := by
  cases records with
  | none => rfl
  | some records => rfl

theorem normalize_joined (answer : NameAnswer) (source : Source) :
    normalizeDnsResult answer.joined source.joined = (normalizeDnsResult answer source).joined := by
  have hrecords (records : Option PartialRecords) :
      ((records.map PartialRecords.joined).bind (·.TXT)).getD [] =
          joinedRecords ((records.bind (·.TXT)).getD []) ∧
        (records.map PartialRecords.joined).bind (·.A) = records.bind (·.A) ∧
        (records.map PartialRecords.joined).bind (·.AAAA) = records.bind (·.AAAA) := by
    cases records with
    | none => exact ⟨rfl, rfl, rfl⟩
    | some records => exact ⟨get_joined records.TXT, rfl, rfl⟩
  obtain ⟨htxt, ha, haaaa⟩ := hrecords answer.records
  unfold normalizeDnsResult
  simp only [NameAnswer.joined, htxt, ha, haaaa, derivedStatus, is_empty_joined]
  rfl

/-- The answer made up from TXT records alone. -/
theorem name_answer_joined (answer : TxtAnswer) :
    nameAnswerOfTxt answer.joined = (nameAnswerOfTxt answer).joined := by
  unfold nameAnswerOfTxt
  simp only [TxtAnswer.joined, get_joined, is_empty_joined]
  rfl

theorem agree_call_map {α : Type} (joined : α → α) (event : Event)
    (answer : Trace → Except JSError α) :
    Run.AgreeOn (Joins joined) (Run.call event answer)
      (Run.call event fun trace => (answer trace).map joined) := by
  intro trace
  refine ⟨rfl, ?_⟩
  rw [Run.call_apply, Run.call_apply]
  cases answer trace with
  | error error => exact .thrown error
  | ok a => exact .returned rfl

theorem resolve_name_joined (source : Source) (name : JSString) :
    Run.AgreeOn (Joins DnsResult.joined) (resolveName source name)
      (resolveName source.joined name) := by
  have hnormalize (answer : NameAnswer) :
      Run.AgreeOn (Joins DnsResult.joined) (pure (normalizeDnsResult answer source) : Run DnsResult)
        (pure (normalizeDnsResult answer.joined source.joined)) :=
    Run.agree_pure (normalize_joined answer source)
  cases hsource : source with
  | mk answerName answerTxt info =>
      rw [hsource] at hnormalize
      cases answerName with
      | some answer =>
          refine Run.agree_bind (agree_call_map NameAnswer.joined _ _) ?_
          rintro answer _ rfl
          exact hnormalize answer
      | none =>
          have hmade (txt : TxtAnswer) := name_answer_joined txt ▸ hnormalize (nameAnswerOfTxt txt)
          cases answerTxt with
          | some answer =>
              refine Run.agree_bind (agree_call_map TxtAnswer.joined _ _) ?_
              rintro txt _ rfl
              exact hmade txt
          | none =>
              have hnone : Run.AgreeOn (Joins TxtAnswer.joined)
                  (pure ⟨text "no_records", some [], none, none⟩ : Run TxtAnswer)
                  (pure ⟨text "no_records", some [], none, none⟩) := Run.agree_pure rfl
              refine Run.agree_bind hnone ?_
              rintro txt _ rfl
              exact hmade txt

/-- The records of a lookup, or the attempt of a failed one. -/
def joinedOutcome : Except Attempt (List TxtRecord) → Except Attempt (List TxtRecord)
  | .error attempt => .error attempt.joined
  | .ok records => .ok (joinedRecords records)

theorem txt_error_joined (dnsResult : DnsResult) :
    txtLookupError dnsResult.joined = txtLookupError dnsResult := by
  unfold txtLookupError
  simp only [DnsResult.joined, RecordSet.joined, is_empty_joined]

theorem lookup_records_joined (source : Source) (name : JSString) (dnsResult : DnsResult)
    (lookup : Lookup) :
    Run.AgreeOn (Joins joinedOutcome) (lookupRecords source name dnsResult lookup)
      (lookupRecords source.joined name dnsResult.joined lookup) := by
  unfold lookupRecords
  by_cases hapex : lookup.queryName = name
  · rw [if_pos hapex, if_pos hapex, txt_error_joined]
    have hempty : dnsResult.joined.records.TXT.isEmpty = dnsResult.records.TXT.isEmpty :=
      is_empty_joined _
    dsimp only
    rw [hempty]
    split
    · exact Run.agree_pure rfl
    · exact Run.agree_pure rfl
  · rw [if_neg hapex, if_neg hapex]
    have hanswer (response : TxtAnswer) :
        Run.AgreeOn (Joins joinedOutcome)
          (if isLookupErrorStatus response.status then
            pure (.error (lookupErrorAttempt lookup response.code response.message none))
          else pure (.ok (response.records.getD [])) : Run (Except Attempt (List TxtRecord)))
          (if isLookupErrorStatus response.joined.status then
            pure (.error (lookupErrorAttempt lookup response.joined.code response.joined.message
              none))
          else pure (.ok (response.joined.records.getD []))) := by
      show Run.AgreeOn _ _ (if isLookupErrorStatus response.status then _ else _)
      split
      · exact Run.agree_pure rfl
      · exact Run.agree_pure (congrArg Except.ok (get_joined response.records))
    cases hsource : source with
    | mk answerName answerTxt info =>
        cases answerTxt with
        | some answer =>
            refine Run.agree_bind (agree_call_map TxtAnswer.joined _ _) ?_
            rintro response _ rfl
            exact hanswer response
        | none => exact fun trace => ⟨rfl, .thrown _⟩

theorem attempt_joined (lookup : Lookup) (parsed : ParseResult) (records : List TxtRecord) :
    metadataAttemptFromParsed lookup parsed (joinedRecords records) =
      (metadataAttemptFromParsed lookup parsed records).joined := by
  unfold metadataAttemptFromParsed
  rw [is_empty_joined]
  rfl

/-- The search reads the same metadata at the same lookup names. -/
theorem find_loop_joined (source : Source) (name : JSString) (dnsResult : DnsResult)
    (lookups : List Lookup) (attempts : List Attempt) :
    Run.AgreeOn (Joins MetadataResult.joined) (findLoop json source name dnsResult lookups attempts)
      (findLoop json source.joined name dnsResult.joined lookups
        (attempts.map Attempt.joined)) := by
  induction lookups generalizing attempts with
  | nil => exact Run.agree_pure rfl
  | cons lookup rest ih =>
      have hsnoc (attempt : Attempt) :
          attempts.map Attempt.joined ++ [attempt.joined] =
            (attempts ++ [attempt]).map Attempt.joined := by
        rw [List.map_append, List.map_singleton]
      rw [findLoop, findLoop]
      refine Run.agree_bind (lookup_records_joined source name dnsResult lookup) ?_
      rintro outcome _ rfl
      cases outcome with
      | error attempt =>
          show Run.AgreeOn _ _ (findLoop json source.joined name dnsResult.joined rest
            (attempts.map Attempt.joined ++ [attempt.joined]))
          rw [hsnoc]
          exact ih _
      | ok records =>
          dsimp only [joinedOutcome]
          rw [parse_joined, attempt_joined, hsnoc]
          split
          · exact Run.agree_pure rfl
          · exact ih _

/-- What the lookup stage finds, with joined records. -/
def joinedLookup (found : JSString × DnsResult × MetadataResult) :
    JSString × DnsResult × MetadataResult :=
  (found.1, found.2.1.joined, found.2.2.joined)

theorem lookup_metadata_joined (options : ResolverOptions) (name : JSString) :
    Run.AgreeOn (Joins joinedLookup) (lookupMetadata json options name)
      (lookupMetadata json { options with source := options.source.joined } name) := by
  unfold lookupMetadata
  refine Run.agree_bind (Run.agree_self _) ?_
  rintro normalizedName _ rfl
  refine Run.agree_bind (resolve_name_joined options.source normalizedName) ?_
  rintro dnsResult _ rfl
  have hfind : Run.AgreeOn (Joins MetadataResult.joined)
      (findMetadata json options.source normalizedName dnsResult options.lookupLocations)
      (findMetadata json options.source.joined normalizedName dnsResult.joined
        options.lookupLocations) := by
    refine Run.agree_bind (Run.agree_self _) ?_
    rintro lookups _ rfl
    exact find_loop_joined options.source normalizedName dnsResult lookups []
  refine Run.agree_bind hfind ?_
  rintro search _ rfl
  exact Run.agree_pure rfl

/-! ## Results -/

theorem final_reason_joined (attempts : List Attempt) :
    finalReasonFromAttempts (attempts.map Attempt.joined) = finalReasonFromAttempts attempts := by
  unfold finalReasonFromAttempts
  simp only [List.any_map]
  rfl

theorem warnings_joined (dnsResult : DnsResult) (search : MetadataResult) (skill : SkillResult) :
    collectWarnings dnsResult.joined search.joined skill =
      collectWarnings dnsResult search skill := by
  have hattempts : (search.attempts.map Attempt.joined).flatMap attemptWarnings =
      search.attempts.flatMap attemptWarnings := by
    rw [List.flatMap_map]
    rfl
  unfold collectWarnings
  rw [← hattempts]
  rfl

theorem build_result_joined (normalizedName : JSString) (dnsResult : DnsResult)
    (search : MetadataResult) (skill : SkillResult) :
    buildResult normalizedName dnsResult.joined search.joined skill =
      (buildResult normalizedName dnsResult search skill).joined := by
  unfold buildResult
  rw [warnings_joined]
  simp only [MetadataResult.joined, final_reason_joined]
  rfl

/-- However the TXT records of a source are cut into segments, and whatever the source is: with the
segments of every record joined, the resolver makes the same queries and requests, throws the same
exceptions, and returns the same results up to the segments of the records that they repeat. -/
theorem resolve_joined (json : Json) (platform : Platform) (options : ResolverOptions)
    (input : JSString) (trace : Trace) :
    resolve json platform { options with source := options.source.joined } input trace =
      ((resolve json platform options input trace).1.map ResolveResult.joined,
        (resolve json platform options input trace).2) := by
  have hagree : Run.AgreeOn (Joins ResolveResult.joined) (resolve json platform options input)
      (resolve json platform { options with source := options.source.joined } input) := by
    unfold resolve
    refine Run.agree_bind (lookup_metadata_joined options input) ?_
    rintro ⟨normalizedName, dnsResult, search⟩ _ rfl
    refine Run.agree_bind (Run.agree_self _) ?_
    rintro skill _ rfl
    exact Run.agree_pure (build_result_joined normalizedName dnsResult search skill)
  obtain ⟨htrace, houtcome⟩ := hagree trace
  refine Prod.ext ?_ htrace.symm
  generalize (resolve json platform options input trace).1 = plain at houtcome
  generalize (resolve json platform { options with source := options.source.joined } input
    trace).1 = joined at houtcome
  cases houtcome with
  | returned h => exact congrArg Except.ok h
  | thrown error => rfl

end AgentResolver
