import AgentResolver.Resolution.ResultObject
import AgentResolver.Service.Replies
import AgentResolver.Web.JsonBytes

/-!
# The bodies of replies

`sendJson` of `src/server.js` down to the bytes: the object of a reply is printed with two spaces,
ended with a line break and encoded. A client that decodes and parses the body has the object of the
reply (`replies_read_back`), and the metadata in it can be published (`served_metadata_published`).
-/

namespace AgentResolver

open JavaScript Web
open Interaction (Run.bind_ok Run.bind_error Run.bind_eq_ok Run.lift_apply)

/-- The object that `sendJson` is given. -/
def bodyObject : ReplyBody → Properties JsonValue
  | .error error message => [(text "error", .string error), (text "message", .string message)]
  | .result result => resultObject result

/-- The text that `sendJson` sends. -/
def bodyText (body : ReplyBody) : JSString :=
  stringify (text "  ") (.object (bodyObject body)) ++ [unit '\n']

/-- The bytes of the text on the connection. -/
def bodyBytes (body : ReplyBody) : List UInt8 := utf8Bytes (bodyText body)

/-- A client that reads an object of the language has what its text shows. -/
theorem body_read {body : ReplyBody} (h : IsLanguageObject (bodyObject body)) :
    parseJsonBytes (bodyBytes body) = some (.object (shownObject (bodyObject body))) := by
  have hread := @parse_json_bytes (text "  ") [unit '\n'] _ h.value (by decide) (by decide)
  rw [shown_object_eq] at hread
  exact hread

/-! ## Where replies come from -/

variable {system : System} {json : Json} {platform : Platform} {servers : List JSString}
  {answers : Interaction.Answers Event Event.Answer JSError}

/-- A reply reports an error, or it is the reply to a result of the resolver. -/
theorem reply_origin {target : JSString} {host : Option JSString} {reply : Reply}
    (h : reply ∈ repliesAlone system json platform servers answers target host) :
    (∃ code error message, reply = ⟨code, .error error message⟩ ∧ code ≠ 200) ∨
      ∃ name options result,
        outcomesOver system json platform answers name options = .ok result ∧
          reply = resolvedReply (.ok result) := by
  unfold repliesAlone handleRequest at h
  cases hurl : newUrlWithBase platform.idna target (requestBase host) with
  | none =>
      rw [hurl, Run.bind_error (Run.lift_apply _ _)] at h
      cases h
  | some url =>
      rw [hurl, Run.bind_ok (Run.lift_apply _ _)] at h
      -- The replies follow the branches of the handler: the path, the parameter, the resolver.
      unfold handleUrl at h
      by_cases hpath : url.pathname ≠ text "/resolve"
      · rw [if_pos hpath] at h
        exact Or.inl ⟨404, _, _, List.mem_singleton.mp h, by decide⟩
      · rw [if_neg hpath] at h
        cases hname : (url.searchParam (text "name")).filter fun name => !name.isEmpty with
        | none =>
            rw [hname] at h
            exact Or.inl ⟨400, _, _, List.mem_singleton.mp h, by decide⟩
        | some name =>
            simp only [hname, reply_resolved_run] at h
            obtain rfl := List.mem_singleton.mp h
            cases houtcome : outcomesOver system json platform answers name _ with
            | error error => exact Or.inl ⟨400, _, _, rfl, by decide⟩
            | ok result => exact Or.inr ⟨name, _, result, houtcome, rfl⟩

/-- A result is one of a run of `resolve`. -/
theorem outcome_returned {name : JSString} {options : ServerOptions} {result : ResolveResult}
    (h : outcomesOver system json platform answers name options = .ok result) :
    ∃ resolver last, resolve json platform resolver name [] = (.ok result, last) := by
  have hrun : resolveOver system json platform answers name options.agentOptions [] =
      (.ok result, (resolveOver system json platform answers name options.agentOptions []).2) :=
    Prod.ext h rfl
  obtain ⟨resolver, trace, hresolver, hresolve⟩ := Run.bind_eq_ok hrun
  obtain rfl : [] = trace := congrArg Prod.snd hresolver
  exact ⟨_, _, hresolve⟩

variable {connection : OpenConnection (resolverService system json platform servers)}

/-- The replies of a connection are among those to its request alone. -/
theorem reply_alone {reply : Reply} (h : reply ∈ connection.replies) :
    ∃ answers, reply ∈ repliesAlone system json platform servers answers connection.target
      connection.host := by
  obtain ⟨answers, more, hmore, -⟩ := connection.exists_run
  have hsent := @run_handler_replies system json platform servers answers connection.target
    connection.host
  have hevents : ((Async.handleRequest platform.idna servers
      (resolverService system json platform servers).resolver connection.target
        connection.host).run answers []).2 = connection.thread.events ++ more := hmore
  rw [hevents, List.filterMap_append] at hsent
  exact ⟨_, hsent ▸ List.mem_append_left _ h⟩

/-- A reply of the service reports an error, or the result of a run of `resolve`. -/
theorem reply_kind {reply : Reply} (h : reply ∈ connection.replies) :
    (∃ code error message, reply = ⟨code, .error error message⟩ ∧ code ≠ 200) ∨
      ∃ result resolver name last, reply = resolvedReply (.ok result) ∧
        resolve json platform resolver name [] = (.ok result, last) := by
  obtain ⟨answers, halone⟩ := reply_alone h
  rcases reply_origin halone with herror | ⟨name, options, result, houtcome, rfl⟩
  · exact Or.inl herror
  · obtain ⟨resolver, last, hresolve⟩ := outcome_returned houtcome
    exact Or.inr ⟨result, resolver, name, last, rfl, hresolve⟩

/-! ## What a client reads -/

theorem error_object_language (error message : JSString) :
    IsLanguageObject (bodyObject (.error error message)) := by
  refine ⟨show [text "error", text "message"].Nodup by decide, ?_⟩
  simp only [bodyObject, List.forall_mem_cons]
  exact ⟨.string _, .string _, fun _ h => absurd h List.not_mem_nil⟩

theorem result_status (result : ResolveResult) :
    getProperty (resultObject result) (text "status") = some (.string result.status.name) := rfl

theorem result_metadata (result : ResolveResult) :
    getProperty (resultObject result) (text "metadata") = some (metadataValue result.metadata) :=
  rfl

theorem status_name_found {status : ResolveStatus} :
    status.name = text "found" ↔ status = .found := by
  cases status with
  | found => exact ⟨fun _ => rfl, fun _ => rfl⟩
  | notFound => exact ⟨fun h => absurd h (by decide), fun h => by cases h⟩

variable {syntaxError : JSString → JSError}
  {connection : OpenConnection (resolverService system (languageJson syntaxError) platform servers)}

/-- In every state of the service and after whatever answers, the bytes of a reply are a JSON text,
and a client that decodes and parses them has the members of the object that was sent, as their
texts show them. The status code is 200 exactly when the `status` member is `found`. -/
theorem replies_read_back {reply : Reply} (h : reply ∈ connection.replies) :
    ∃ members, parseJsonBytes (bodyBytes reply.body) = some (.object members) ∧
      (∀ key, getProperty members key =
        (getProperty (bodyObject reply.body) key).map JsonValue.shown) ∧
      (reply.statusCode = 200 ↔
        getProperty members (text "status") = some (.string (text "found"))) := by
  -- An error object has no `status` member, a result has the one that decides its code.
  rcases reply_kind h with
    ⟨code, error, message, rfl, hcode⟩ | ⟨result, resolver, name, last, rfl, hresolve⟩
  · have hlanguage := error_object_language error message
    have hread (key : JSString) := get_shown hlanguage.distinct key
    refine ⟨_, body_read hlanguage, hread, fun hfound => absurd hfound hcode, fun hstatus => ?_⟩
    rw [hread] at hstatus
    cases hstatus
  · have hlanguage : IsLanguageObject (bodyObject (resolvedReply (.ok result)).body) :=
      result_object_language (resolve_printable (fun _ _ => language_json_parse) hresolve)
    have hread (key : JSString) := get_shown hlanguage.distinct key
    refine ⟨_, body_read hlanguage, hread, ?_⟩
    have hstatus : getProperty (bodyObject (resolvedReply (.ok result)).body) (text "status") =
        some (.string result.status.name) := result_status result
    rw [hread, hstatus, resolved_reply_code, Option.map_some, JsonValue.shown, Option.some_inj,
      JsonValue.string.injEq, status_name_found]
    constructor
    · rintro ⟨other, hother, hfound⟩
      rwa [Except.ok.inj hother]
    · exact fun hfound => ⟨result, rfl, hfound⟩

/-- A client reads the reply to a request for another path. -/
theorem replies_read_back_example :
    ∃ members, parseJsonBytes (bodyBytes (.error (text "not_found")
        (text "use /resolve?name=<handshake-name>"))) = some (.object members) ∧
      getProperty members (text "error") = some (.string (text "not_found")) := by
  obtain ⟨resumed, hresumed⟩ : ∃ resumed, (OpenConnection.accept (text "/") none :
      OpenConnection (resolverService .offline (languageJson JSError.mk) .ascii [])).resume
        (fun _ => .error ⟨text "no answer"⟩) = some resumed := ⟨_, rfl⟩
  have hreply : ⟨404, .error (text "not_found") (text "use /resolve?name=<handshake-name>")⟩ ∈
      resumed.2.replies := by
    rw [← Option.some.inj hresumed]
    exact List.mem_singleton_self _
  obtain ⟨members, hparse, hread, -⟩ := replies_read_back hreply
  exact ⟨members, hparse, hread _⟩

/-- The metadata that a client reads in a reply with status 200 is valid metadata, and it can be
published as it is printed: the same identity is found again, with the `extra` member as the text
shows it. -/
theorem served_metadata_published {result : ResolveResult}
    (h : ⟨200, .result result⟩ ∈ connection.replies) :
    ∃ members metadata identity, parseJsonBytes (bodyBytes (.result result)) =
        some (.object members) ∧
      getProperty members (text "metadata") = some metadata ∧ result.metadata = some identity ∧
      (validateAgentIdentityMetadata metadata).ok ∧
      ∀ record, joinTxtRecord record =
          metadataPrefix ++ (languageJson syntaxError).stringify metadata →
        (joinTxtRecord record).length ≤ maxTxtValueLength →
        ∃ again, (parseTxtRecords (languageJson syntaxError) [record]).identity = some again ∧
          SameIdentity identity.shown again := by
  rcases reply_kind h with
    ⟨code, error, message, heq, hcode⟩ | ⟨other, resolver, name, last, heq, hresolve⟩
  · cases heq
  · obtain ⟨hcode, hbody⟩ := Reply.mk.inj heq
    obtain rfl := ReplyBody.result.inj hbody
    have hfound : result.status = .found := by
      by_contra hmissing
      rw [if_neg hmissing] at hcode
      cases hcode
    obtain ⟨identity, hidentity⟩ := found_metadata hresolve hfound
    have hprintable := resolve_printable (fun _ _ => @language_json_parse syntaxError _ _) hresolve
    have hlanguage := result_object_language hprintable
    obtain ⟨hnormal, hvalid⟩ := hprintable.metadata identity hidentity
    -- The member is printed and read as the shown identity, which is normal again.
    have hmetadata : getProperty (shownObject (resultObject result)) (text "metadata") =
        some (.object (identityObject identity.shown)) := by
      rw [get_shown hlanguage.distinct, result_metadata, hidentity, Option.map_some]
      exact congrArg some (identity_object_shown hnormal hvalid)
    refine ⟨_, _, identity, body_read hlanguage, hmetadata, hidentity,
      (normal_accepted_again hnormal.shown).1, fun record hrecord hlength => ?_⟩
    rw [hrecord] at hlength
    obtain ⟨again, houtcome, hsame⟩ := publication_found hnormal.shown
      (shown_identity_printed syntaxError hnormal hvalid) hlength hrecord
    exact ⟨again, congrArg Prod.snd houtcome, hsame⟩

/-- The answer of a source that has one TXT record at every name. -/
def oneRecordAnswer (record : JSString) : NameAnswer where
  status := none
  resolved := none
  addresses := none
  address := none
  recordType := none
  records := some ⟨none, none, some [.single record]⟩
  recordStatus := none
  source := none
  errors := none

/-- The answers of a source with this record at every name, and no others. -/
def oneRecordAnswers (event : Event) : Except JSError event.Answer :=
  match event with
  | .resolveName _ => .ok (oneRecordAnswer (text "hns-agent=v1;id=a"))
  | .resolveTxt _ => .error ⟨text "no answer"⟩
  | .fetch _ _ => .error ⟨text "no answer"⟩
  | .requestSkill _ _ => .error ⟨text "no answer"⟩

/-- The record of a name is served and can be published. -/
theorem served_metadata_published_example :
    ∃ result members metadata identity, parseJsonBytes (bodyBytes (.result result)) =
        some (.object members) ∧
      getProperty members (text "metadata") = some metadata ∧ result.metadata = some identity ∧
      identity.strings = [(text "id", text "a")] ∧
      (validateAgentIdentityMetadata metadata).ok := by
  obtain ⟨waiting, hwaiting⟩ : ∃ waiting, (OpenConnection.accept (text "/resolve?name=alice") none :
      OpenConnection (resolverService .offline (languageJson JSError.mk) .ascii [])).resume
        (answering oneRecordAnswers) = some waiting := ⟨_, rfl⟩
  obtain ⟨resumed, hresumed⟩ : ∃ resumed,
      waiting.2.resume (answering oneRecordAnswers) = some resumed := by
    rw [← Option.some.inj hwaiting]
    exact ⟨_, rfl⟩
  obtain ⟨result, hreply, hstrings⟩ : ∃ result, ⟨200, .result result⟩ ∈ resumed.2.replies ∧
      result.metadata.map Identity.strings = some [(text "id", text "a")] := by
    obtain rfl := Option.some.inj hwaiting
    obtain rfl := Option.some.inj hresumed
    exact ⟨_, List.mem_singleton_self _, rfl⟩
  obtain ⟨members, metadata, identity, hparse, hread, hidentity, hok, -⟩ :=
    served_metadata_published hreply
  rw [hidentity] at hstrings
  exact ⟨result, members, metadata, identity, hparse, hread, hidentity, Option.some.inj hstrings,
    hok⟩

end AgentResolver
