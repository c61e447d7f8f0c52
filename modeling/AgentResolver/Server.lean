import AgentResolver.Resolver

/-!
# The HTTP service

The request handler of `src/server.js`. `new URL` reads the request target and the `Host` header
before the `try` block, so a target or header that is no URL makes the handler's promise reject
without a reply: `replies_iff_url`. On every other request it sends one reply.
-/

namespace AgentResolver

open JavaScript Web
open Interaction (Run.call Run.attempt Run.lift Run.bind_apply Run.bind_ok Run.bind_error
  Run.lift_apply Run.attempt_apply Run.call_apply)

/-- The options that the handler passes to `resolveAgentIdentity`. -/
structure ServerOptions where
  dns : Option (List JSString)
  forceSkillDiscovery : Bool
  deriving DecidableEq

/-- The object that `sendJson` writes. -/
inductive ReplyBody where
  | error (error message : JSString)
  | result (result : ResolveResult)

/-- A reply: its status code and the object whose JSON text is the body. -/
structure Reply where
  statusCode : Nat
  body : ReplyBody

/-- What the handler does to the outside world: it asks the resolver and sends replies. -/
inductive ServerEvent where
  | resolve (name : JSString) (options : ServerOptions)
  | send (reply : Reply)

abbrev ServerRun (α : Type) := Interaction.Run ServerEvent JSError α

/-- `resolveAgentIdentity`, given by its outcomes. -/
abbrev ResolveAgentIdentity := JSString → ServerOptions → Except JSError ResolveResult

def sendJson (statusCode : Nat) (body : ReplyBody) : ServerRun Unit :=
  Run.call (.send ⟨statusCode, body⟩) fun _ => .ok ()

def booleanParam (url : Url) (name : JSString) : Bool :=
  url.searchParam name ∈ [some (text "1"), some (text "true"), some (text "yes")]

/-- The text of the base URL that a request target is read against. -/
def requestBase (host : Option JSString) : JSString :=
  text "http://" ++ host.getD (text "127.0.0.1")

/-- The `try` statement of the handler; `sendJson` is in the block that is tried. -/
def replyResolved (resolveAgentIdentity : ResolveAgentIdentity) (name : JSString)
    (options : ServerOptions) : ServerRun Unit := do
  match ← Run.attempt (do
      let result ← Run.call (.resolve name options) fun _ => resolveAgentIdentity name options
      sendJson (if result.status = .found then 200 else 404) (.result result)) with
  | .ok () => return ()
  | .error error => sendJson 400 (.error (text "bad_request") error.message)

/-- The handler from `url.pathname` on. -/
def handleUrl (servers : List JSString) (resolveAgentIdentity : ResolveAgentIdentity)
    (url : Url) : ServerRun Unit :=
  if url.pathname ≠ text "/resolve" then
    sendJson 404 (.error (text "not_found") (text "use /resolve?name=<handshake-name>"))
  else
    match (url.searchParam (text "name")).filter fun name => !name.isEmpty with
    | none =>
        sendJson 400 (.error (text "bad_request") (text "name query parameter is required"))
    | some name =>
        replyResolved resolveAgentIdentity name
          { dns := if servers.isEmpty then none else some servers
            forceSkillDiscovery := booleanParam url (text "forceSkillDiscovery") ||
              booleanParam url (text "force-skill-discovery") }

/-- The callback of `http.createServer`, for a request target and a `Host` header. -/
def handleRequest (idna : Idna) (servers : List JSString)
    (resolveAgentIdentity : ResolveAgentIdentity) (target : JSString) (host : Option JSString) :
    ServerRun Unit := do
  let url ← Run.lift (match newUrlWithBase idna target (requestBase host) with
    | some url => .ok url
    | none => .error ⟨text "Invalid URL"⟩)
  handleUrl servers resolveAgentIdentity url

/-- The reply that an event sends. -/
def sentReply : ServerEvent → Option Reply
  | .send reply => some reply
  | .resolve _ _ => none

variable {servers : List JSString} {resolveAgentIdentity : ResolveAgentIdentity}

/-- The resolver was asked and found metadata. -/
def ResolverFound (resolveAgentIdentity : ResolveAgentIdentity) (events : List ServerEvent) :
    Prop :=
  ∃ name options result, ServerEvent.resolve name options ∈ events ∧
    resolveAgentIdentity name options = .ok result ∧ result.status = .found

/-- The handler returned and sent exactly one reply, which is 200 exactly when the resolver found
metadata. -/
def Answers (resolveAgentIdentity : ResolveAgentIdentity) (outcome : Except JSError Unit)
    (events : List ServerEvent) : Prop :=
  outcome = .ok () ∧ ∃ reply, events.filterMap sentReply = [reply] ∧
    (reply.statusCode = 200 ↔ ResolverFound resolveAgentIdentity events)

/-- A reply without asking the resolver. -/
theorem answers_directly {reply : Reply} (h : reply.statusCode ≠ 200) :
    Answers resolveAgentIdentity (.ok ()) [.send reply] := by
  refine ⟨rfl, reply, rfl, fun hcode => absurd hcode h, ?_⟩
  rintro ⟨name, options, result, hmem, -⟩
  simp at hmem

/-- A reply after asking the resolver. -/
theorem answers_after_resolve {name : JSString} {options : ServerOptions} {reply : Reply}
    (h : reply.statusCode = 200 ↔
      ∃ result, resolveAgentIdentity name options = .ok result ∧ result.status = .found) :
    Answers resolveAgentIdentity (.ok ()) [.resolve name options, .send reply] := by
  refine ⟨rfl, reply, rfl, h.trans ?_⟩
  constructor
  · rintro ⟨result, hresult, hfound⟩
    exact ⟨name, options, result, by simp, hresult, hfound⟩
  · rintro ⟨name', options', result, hmem, hresult, hfound⟩
    obtain ⟨rfl, rfl⟩ : name' = name ∧ options' = options := by simpa using hmem
    exact ⟨result, hresult, hfound⟩

/-- The reply of the `try` statement. -/
def resolvedReply : Except JSError ResolveResult → Reply
  | .ok result => ⟨if result.status = .found then 200 else 404, .result result⟩
  | .error error => ⟨400, .error (text "bad_request") error.message⟩

theorem reply_resolved_run (name : JSString) (options : ServerOptions)
    (trace : List ServerEvent) :
    replyResolved resolveAgentIdentity name options trace =
      (.ok (), trace ++ [.resolve name options,
        .send (resolvedReply (resolveAgentIdentity name options))]) := by
  cases h : resolveAgentIdentity name options with
  | ok result => simp [replyResolved, sendJson, Run.bind_apply, resolvedReply, h]
  | error error => simp [replyResolved, sendJson, Run.bind_apply, resolvedReply, h]

/-- Only a result with metadata is replied to with 200. -/
theorem resolved_reply_code (outcome : Except JSError ResolveResult) :
    (resolvedReply outcome).statusCode = 200 ↔
      ∃ result, outcome = .ok result ∧ result.status = .found := by
  cases outcome with
  | error error => simp [resolvedReply]
  | ok result =>
      by_cases hfound : result.status = .found
      · simp [resolvedReply, hfound]
      · simp [resolvedReply, hfound]

/-- From `url.pathname` on the handler answers, whatever the resolver does. -/
theorem handle_url_answers (url : Url) (trace : List ServerEvent) :
    ∃ events, (handleUrl servers resolveAgentIdentity url trace).2 = trace ++ events ∧
      Answers resolveAgentIdentity (handleUrl servers resolveAgentIdentity url trace).1 events := by
  unfold handleUrl
  by_cases hpath : url.pathname ≠ text "/resolve"
  · rw [if_pos hpath]
    exact ⟨_, rfl, @answers_directly _ ⟨404, _⟩ (by decide)⟩
  · rw [if_neg hpath]
    cases (url.searchParam (text "name")).filter fun name => !name.isEmpty with
    | none => exact ⟨_, rfl, @answers_directly _ ⟨400, _⟩ (by decide)⟩
    | some name =>
        dsimp only
        rw [reply_resolved_run]
        exact ⟨_, rfl, answers_after_resolve (resolved_reply_code _)⟩

/-- The handler answers exactly the requests whose target is a URL against the `Host` header. -/
theorem replies_iff_url (idna : Idna) (servers : List JSString)
    (resolveAgentIdentity : ResolveAgentIdentity) (target : JSString) (host : Option JSString)
    (trace : List ServerEvent) :
    (∃ events, (handleRequest idna servers resolveAgentIdentity target host trace).2 =
          trace ++ events ∧
        Answers resolveAgentIdentity
          (handleRequest idna servers resolveAgentIdentity target host trace).1 events) ↔
      (newUrlWithBase idna target (requestBase host)).isSome := by
  unfold handleRequest
  cases hurl : newUrlWithBase idna target (requestBase host) with
  | none =>
      rw [Run.bind_error (Run.lift_apply _ _)]
      constructor
      · rintro ⟨events, -, houtcome, -⟩
        cases houtcome
      · intro h
        cases h
  | some url =>
      rw [Run.bind_ok (Run.lift_apply _ _)]
      exact ⟨fun _ => rfl, fun _ => handle_url_answers url trace⟩

/-- The request target of two slashes is no URL: the handler's promise rejects and nothing is
sent. -/
theorem slashes_rejected :
    handleRequest .ascii [] (fun _ _ => .error ⟨text "name must be a string"⟩) (text "//")
        (some (text "127.0.0.1:8787")) [] =
      (.error ⟨text "Invalid URL"⟩, []) := by
  have hurl : newUrlWithBase .ascii (text "//") (requestBase (some (text "127.0.0.1:8787"))) =
      none := rfl
  unfold handleRequest
  rw [hurl]
  rfl

end AgentResolver
