import AgentResolver.AgentIdentity
import AgentResolver.Server

/-!
# The request handler as a process

The callback of `http.createServer` in `src/server.js`, with the resolver's own waiting inside it:
the handler of one request stops at every lookup and fetch of its `resolveAgentIdentity`, and
handlers of other requests run in between. `handler_replies` says that a handler that runs alone
replies as `handleRequest` of `Server` does.
-/

namespace AgentResolver

open JavaScript Web
open Interaction (Process.lift Process.attempt Process.translate
  Process.run Process.run_bind Process.run_lift Process.run_attempt Process.run_translate
  Run.lift Run.attempt Run.bind_ok Run.bind_error Run.lift_apply Run.attempt_apply Run.bind_apply)

/-- What a handler does to the outside world: it waits for the calls of its resolver and sends
replies. -/
inductive ServiceEvent where
  | waited (event : Event)
  | sent (reply : Reply)

/-- The value that an event is answered with. -/
def ServiceEvent.Answer : ServiceEvent → Type
  | .waited event => event.Answer
  | .sent _ => Unit

/-- A program that stops at these events. -/
abbrev ServiceAsync (α : Type) :=
  Interaction.Process ServiceEvent ServiceEvent.Answer JSError α

/-- `resolveAgentIdentity` as a process, given a name and the options of the handler. -/
abbrev AsyncResolver := JSString → ServerOptions → Async ResolveResult

/-- The answer to an event of the resolver, as it is. -/
def ServiceEvent.read (event : Event) (answer : (ServiceEvent.waited event).Answer) :
    event.Answer := answer

namespace Async

def sendJson (statusCode : Nat) (body : ReplyBody) : ServiceAsync Unit :=
  .wait (ServiceEvent.sent ⟨statusCode, body⟩) fun _ => .done (.ok ())

/-- The `try` statement of the handler. -/
def replyResolved (resolver : AsyncResolver) (name : JSString) (options : ServerOptions) :
    ServiceAsync Unit := do
  match ← Process.attempt (do
      let result ← (resolver name options).translate .waited ServiceEvent.read
      sendJson (if result.status = .found then 200 else 404) (.result result)) with
  | .ok () => return ()
  | .error error => sendJson 400 (.error (text "bad_request") error.message)

/-- The handler from `url.pathname` on. -/
def handleUrl (servers : List JSString) (resolver : AsyncResolver) (url : Url) :
    ServiceAsync Unit :=
  if url.pathname ≠ text "/resolve" then
    sendJson 404 (.error (text "not_found") (text "use /resolve?name=<handshake-name>"))
  else
    match (url.searchParam (text "name")).filter fun name => !name.isEmpty with
    | none =>
        sendJson 400 (.error (text "bad_request") (text "name query parameter is required"))
    | some name =>
        replyResolved resolver name
          { dns := if servers.isEmpty then none else some servers
            forceSkillDiscovery := booleanParam url (text "forceSkillDiscovery") ||
              booleanParam url (text "force-skill-discovery") }

/-- The callback of `http.createServer`, for a request target and a `Host` header. -/
def handleRequest (idna : Idna) (servers : List JSString) (resolver : AsyncResolver)
    (target : JSString) (host : Option JSString) : ServiceAsync Unit := do
  let url ← Process.lift (match newUrlWithBase idna target (requestBase host) with
    | some url => .ok url
    | none => .error ⟨text "Invalid URL"⟩)
  handleUrl servers resolver url

end Async

/-! ## A handler that runs alone -/

/-- The reply that an event sends. -/
def ServiceEvent.reply : ServiceEvent → Option Reply
  | .sent reply => some reply
  | .waited _ => none

/-- The events of the resolver send nothing. -/
theorem waited_reply (events : List Event) :
    (events.map ServiceEvent.waited).filterMap ServiceEvent.reply = [] := by
  rw [List.filterMap_map]
  exact List.filterMap_eq_nil_iff.mpr fun _ _ => rfl

variable (answers : Interaction.Answers ServiceEvent ServiceEvent.Answer JSError)

/-- The run of the resolver inside a handler that has done nothing yet. -/
def resolverRun (resolver : AsyncResolver) (name : JSString) (options : ServerOptions) :
    Except JSError ResolveResult × Trace :=
  (resolver name options).run (answers.restrict .waited ServiceEvent.read) []

/-- The handler waits for its resolver, then sends the reply that belongs to its outcome. -/
theorem run_reply_resolved (resolver : AsyncResolver) (name : JSString)
    (options : ServerOptions) :
    (Async.replyResolved resolver name options).run answers [] =
      (.ok (), (resolverRun answers resolver name options).2.map .waited ++
        [.sent (resolvedReply (resolverRun answers resolver name options).1)]) := by
  have hinner := @Process.run_translate _ _ _ _ _ _ ServiceEvent.waited ServiceEvent.read answers
    (resolver name options) []
  have hinner : ((resolver name options).translate ServiceEvent.waited ServiceEvent.read).run
      answers [] = ((resolverRun answers resolver name options).1,
        (resolverRun answers resolver name options).2.map ServiceEvent.waited) := hinner
  rw [Async.replyResolved, Process.run_bind, Process.run_attempt, Process.run_bind,
    Run.bind_ok (Run.attempt_apply _ _), Run.bind_apply, hinner]
  cases (resolverRun answers resolver name options).1 with
  | ok result => rfl
  | error error => rfl

/-- From `url.pathname` on the handler waits for its resolver, if it asks it, and then replies. -/
theorem run_handle_url_events (servers : List JSString) (resolver : AsyncResolver) (url : Url) :
    ∃ (waited : Trace) (reply : Reply), (Async.handleUrl servers resolver url).run answers [] =
      (.ok (), waited.map .waited ++ [.sent reply]) := by
  unfold Async.handleUrl
  by_cases hpath : url.pathname ≠ text "/resolve"
  · rw [if_pos hpath]
    exact ⟨[], _, rfl⟩
  · rw [if_neg hpath]
    cases (url.searchParam (text "name")).filter fun name => !name.isEmpty with
    | none => exact ⟨[], _, rfl⟩
    | some name =>
        dsimp only
        rw [run_reply_resolved]
        exact ⟨_, _, rfl⟩

/-- From `url.pathname` on the handler, alone, ends and sends what `Server` says is sent. -/
theorem run_handle_url (servers : List JSString) (resolver : AsyncResolver) (url : Url) :
    ((Async.handleUrl servers resolver url).run answers []).1 = .ok () ∧
      ((Async.handleUrl servers resolver url).run answers []).2.filterMap ServiceEvent.reply =
        (handleUrl servers (fun name options => (resolverRun answers resolver name options).1) url
          []).2.filterMap sentReply := by
  unfold Async.handleUrl handleUrl
  by_cases hpath : url.pathname ≠ text "/resolve"
  · rw [if_pos hpath, if_pos hpath]
    exact ⟨rfl, rfl⟩
  · rw [if_neg hpath, if_neg hpath]
    cases (url.searchParam (text "name")).filter fun name => !name.isEmpty with
    | none => exact ⟨rfl, rfl⟩
    | some name =>
        dsimp only
        rw [run_reply_resolved, reply_resolved_run, List.filterMap_append, waited_reply]
        exact ⟨rfl, rfl⟩

/-- A handler that runs alone ends and replies as `handleRequest` does for the outcomes of its
resolver. -/
theorem handler_replies (idna : Idna) (servers : List JSString) (resolver : AsyncResolver)
    (target : JSString) (host : Option JSString) :
    ((Async.handleRequest idna servers resolver target host).run answers []).1 =
        (handleRequest idna servers
          (fun name options => (resolverRun answers resolver name options).1) target host []).1 ∧
      ((Async.handleRequest idna servers resolver target host).run answers []).2.filterMap
          ServiceEvent.reply =
        (handleRequest idna servers
          (fun name options => (resolverRun answers resolver name options).1) target host
          []).2.filterMap sentReply := by
  unfold Async.handleRequest handleRequest
  rw [Process.run_bind, Process.run_lift]
  cases newUrlWithBase idna target (requestBase host) with
  | none => exact ⟨rfl, rfl⟩
  | some url =>
      rw [Run.bind_ok (Run.lift_apply _ _), Run.bind_ok (Run.lift_apply _ _)]
      obtain ⟨hended, hreplies⟩ := run_handle_url answers servers resolver url
      obtain ⟨events, -, houtcome, -⟩ := @handle_url_answers servers
        (fun name options => (resolverRun answers resolver name options).1) url []
      exact ⟨hended.trans houtcome.symm, hreplies⟩

end AgentResolver
