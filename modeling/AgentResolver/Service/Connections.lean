import AgentResolver.Interaction.Pool
import AgentResolver.Service.Handler

/-!
# The service under concurrent requests

The process of `src/server.js` with any number of open connections. Its handlers run side by side:
a move is the arrival of a request or the answer to what one handler waits for, in any order and
with any answers. A handler whose promise rejects ends the whole process, since nothing catches the
rejection. `service_safe` is what holds in every state that the process can reach.
-/

namespace AgentResolver

open JavaScript Web
open Interaction

/-- What the service is started with. -/
structure ServiceOptions where
  idna : Idna
  servers : List JSString
  resolver : AsyncResolver

variable {options : ServiceOptions}

/-- An open connection: its request and its handler, as far as this has come. -/
structure OpenConnection (options : ServiceOptions) where
  target : JSString
  host : Option JSString
  thread : Thread ServiceEvent ServiceEvent.Answer JSError Unit
  handles : thread.origin =
    Async.handleRequest options.idna options.servers options.resolver target host

namespace OpenConnection

variable (connection : OpenConnection options)

/-- A connection whose handler has just been called. -/
def accept (target : JSString) (host : Option JSString) : OpenConnection options where
  target := target
  host := host
  thread := .start
    (Async.handleRequest options.idna options.servers options.resolver target host)
  handles := rfl

/-- The replies that the handler has sent. -/
def replies : List Reply := connection.thread.events.filterMap ServiceEvent.reply

/-- The handler's promise is settled. -/
def isOver : Bool := connection.thread.outcome.isSome

/-- The handler's promise is rejected. -/
def isRejected : Bool := connection.thread.outcome.any fun outcome => !outcome.isOk

/-- The target of the request is a URL against its `Host` header. -/
def hasUrl : Bool :=
  (newUrlWithBase options.idna connection.target (requestBase connection.host)).isSome

/-- The handler gets the answer that it waits for. -/
def resume (answer : (event : ServiceEvent) → Except JSError event.Answer) :
    Option (Exchange ServiceEvent ServiceEvent.Answer JSError × OpenConnection options) :=
  match h : connection.thread.resume answer with
  | none => none
  | some (exchange, next) =>
      some (exchange, { connection with
        thread := next
        handles := (Thread.resume_eq_some h).1.trans connection.handles })

end OpenConnection

/-- The process of the service. `history` is what an environment can remember. -/
structure Service (options : ServiceOptions) where
  running : Bool
  connections : List (OpenConnection options)
  history : List (Nat × Exchange ServiceEvent ServiceEvent.Answer JSError)

/-- A process that has just begun to listen. -/
def Service.listening : Service options := ⟨true, [], []⟩

/-- A request comes in, or the handler of the connection with the number goes on. -/
inductive ServiceMove where
  | request (target : JSString) (host : Option JSString)
  | turn (number : Nat)

/-- What the handlers wait for is answered by an environment, which may remember everything. -/
abbrev ServiceEnvironment := Environment Nat ServiceEvent ServiceEvent.Answer JSError

/-- One move. The process ends with the first promise that is rejected. -/
def Service.step (environment : ServiceEnvironment) (service : Service options) :
    ServiceMove → Option (Service options)
  | .request target host =>
      if service.running then
        let connection := OpenConnection.accept target host
        some { service with
          running := !connection.isRejected
          connections := service.connections ++ [connection] }
      else none
  | .turn number =>
      if service.running then do
        let connection ← service.connections[number]?
        let (exchange, next) ← connection.resume (environment service.history number)
        return {
          running := !next.isRejected
          connections := service.connections.set number next
          history := service.history ++ [(number, exchange)] }
      else none

/-! ## One connection -/

namespace OpenConnection

variable (connection : OpenConnection options)

/-- Some environment explains what a handler has done so far. -/
theorem exists_run : ∃ answers more,
    ((Async.handleRequest options.idna options.servers options.resolver connection.target
      connection.host).run answers []).2 = connection.thread.events ++ more ∧
    (more = [] ↔ connection.isOver) ∧
    ∀ outcome, connection.thread.outcome = some outcome →
      ((Async.handleRequest options.idna options.servers options.resolver connection.target
        connection.host).run answers []).1 = outcome := by
  obtain ⟨answers, hanswers⟩ :=
    connection.thread.exists_answered_by fun _ _ => .error ⟨text "no answer"⟩
  obtain ⟨more, hmore⟩ := hanswers.run
  rw [connection.handles] at hmore
  exact ⟨answers, more, hmore⟩

/-- Without a URL the handler has rejected its promise and sent nothing. -/
theorem rejected_of_no_url (h : connection.hasUrl = false) :
    connection.isRejected = true ∧ connection.replies = [] := by
  have hnone : newUrlWithBase options.idna connection.target (requestBase connection.host) =
      none := by
    simpa [hasUrl] using h
  have hdone : connection.thread.origin = .done (.error ⟨text "Invalid URL"⟩) := by
    rw [connection.handles, Async.handleRequest, hnone]
    rfl
  obtain ⟨hexchanges, hcurrent⟩ :=
    Process.Continues.of_done (hdone ▸ connection.thread.continues)
  constructor
  · rw [isRejected, Thread.outcome, hcurrent]
    rfl
  · rw [replies, Thread.events, hexchanges]
    rfl

/-- With a URL the handler never rejects its promise. It has replied once when it is over, and not
before. -/
theorem replied_iff_over (h : connection.hasUrl = true) :
    connection.isRejected = false ∧
      connection.replies.length = if connection.isOver then 1 else 0 := by
  obtain ⟨url, hurl⟩ := Option.isSome_iff_exists.mp h
  obtain ⟨answers, more, hmore, hover, houtcome⟩ := connection.exists_run
  obtain ⟨waited, reply, hrun⟩ := run_handle_url_events answers options.servers options.resolver url
  have hhandler : (Async.handleRequest options.idna options.servers options.resolver
      connection.target connection.host).run answers [] =
        (.ok (), waited.map .waited ++ [.sent reply]) := by
    rw [Async.handleRequest, Process.run_bind, Process.run_lift, hurl,
      Run.bind_ok (Run.lift_apply _ _), hrun]
  rw [hhandler] at hmore houtcome
  constructor
  · cases hended : connection.thread.outcome with
    | none => rw [isRejected, hended]; rfl
    | some outcome =>
        rw [isRejected, hended, ← houtcome outcome hended]
        rfl
  · unfold replies
    cases more using List.reverseRecOn with
    | nil =>
        rw [List.append_nil] at hmore
        rw [← hmore, List.filterMap_append, waited_reply, if_pos (hover.mp rfl)]
        rfl
    | append_singleton more last =>
        -- The reply is the last event, so it has not been sent yet.
        rw [← List.append_assoc] at hmore
        have hsent := (List.append_inj' hmore rfl).1
        have hnone := waited_reply waited
        rw [hsent, List.filterMap_append, List.append_eq_nil_iff] at hnone
        rw [hnone.1, if_neg]
        · rfl
        · intro hended
          have := hover.mpr hended
          simp at this

/-- The promise is rejected exactly when there is no URL. -/
theorem is_rejected_eq : connection.isRejected = !connection.hasUrl := by
  cases h : connection.hasUrl with
  | false => exact (connection.rejected_of_no_url h).1
  | true => exact (connection.replied_iff_over h).1

/-- A handler replies once, when it is over, and not at all without a URL. -/
theorem length_replies :
    connection.replies.length = if connection.hasUrl && connection.isOver then 1 else 0 := by
  cases h : connection.hasUrl with
  | false => rw [(connection.rejected_of_no_url h).2]; rfl
  | true => exact (connection.replied_iff_over h).2

variable {connection}

/-- What an answer does to a connection. -/
theorem resume_eq_some {next : OpenConnection options}
    {answer : (event : ServiceEvent) → Except JSError event.Answer}
    {exchange : Exchange ServiceEvent ServiceEvent.Answer JSError}
    (h : connection.resume answer = some (exchange, next)) :
    next.target = connection.target ∧ next.host = connection.host ∧
      next.thread.exchanges = connection.thread.exchanges ++ [exchange] ∧
      exchange.2 = answer exchange.1 := by
  unfold resume at h
  split at h
  · cases h
  · rename_i hresumed
    obtain ⟨rfl, rfl⟩ := Prod.mk.inj (Option.some.inj h)
    obtain ⟨-, hexchanges, hanswer⟩ := Thread.resume_eq_some hresumed
    exact ⟨rfl, rfl, hexchanges, hanswer⟩

/-- A handler goes on unless it is over. -/
theorem resume_eq_none {answer : (event : ServiceEvent) → Except JSError event.Answer} :
    connection.resume answer = none ↔ connection.isOver := by
  rw [isOver, ← @Thread.resume_eq_none _ _ _ _ _ answer]
  unfold resume
  split
  · rename_i hresumed
    exact ⟨fun _ => hresumed, fun _ => rfl⟩
  · rename_i hresumed
    constructor
    · intro h
      cases h
    · intro h
      rw [h] at hresumed
      cases hresumed

end OpenConnection

/-! ## One move -/

section

variable {environment : ServiceEnvironment} {service next : Service options} {move : ServiceMove}

/-- What a request does: it opens a connection. -/
theorem step_request {target : JSString} {host : Option JSString}
    (h : service.step environment (.request target host) = some next) :
    service.running = true ∧
      next.connections = service.connections ++ [.accept target host] ∧
      next.running = (OpenConnection.accept target host : OpenConnection options).hasUrl := by
  rw [Service.step] at h
  split at h
  · rename_i hrunning
    obtain rfl := (Option.some.inj h).symm
    refine ⟨hrunning, rfl, ?_⟩
    show (!OpenConnection.isRejected _) = _
    rw [OpenConnection.is_rejected_eq, Bool.not_not]
  · cases h

/-- What a turn does: one handler makes an exchange. -/
theorem step_turn {number : Nat} (h : service.step environment (.turn number) = some next) :
    ∃ connection resumed exchange, service.running = true ∧
      service.connections[number]? = some connection ∧
      connection.resume (environment service.history number) = some (exchange, resumed) ∧
      next.connections = service.connections.set number resumed ∧
      next.running = resumed.hasUrl := by
  rw [Service.step] at h
  split at h
  · rename_i hrunning
    obtain ⟨connection, hconnection, h⟩ := Option.bind_eq_some_iff.mp h
    obtain ⟨resumed, hresumed, h⟩ := Option.bind_eq_some_iff.mp h
    obtain rfl := (Option.some.inj h).symm
    refine ⟨connection, resumed.2, resumed.1, hrunning, hconnection, hresumed, rfl, ?_⟩
    show (!resumed.2.isRejected) = _
    rw [OpenConnection.is_rejected_eq, Bool.not_not]
  · cases h

/-- The process runs exactly as long as every request had a URL. -/
theorem step_running (hservice : service.running = service.connections.all OpenConnection.hasUrl)
    (h : service.step environment move = some next) :
    next.running = next.connections.all OpenConnection.hasUrl := by
  cases move with
  | request target host =>
      obtain ⟨hrunning, hconnections, hnext⟩ := step_request h
      rw [hconnections, hnext, List.all_append, ← hservice, hrunning]
      simp
  | turn number =>
      obtain ⟨connection, resumed, exchange, hrunning, hconnection, hresume, hconnections, hnext⟩ :=
        step_turn h
      obtain ⟨htarget, hhost, -, -⟩ := OpenConnection.resume_eq_some hresume
      have hsame : resumed.hasUrl = connection.hasUrl := by
        rw [OpenConnection.hasUrl, htarget, hhost, OpenConnection.hasUrl]
      rw [hrunning] at hservice
      have hall := List.all_eq_true.mp hservice.symm
      have hurl := hall connection (List.mem_of_getElem? hconnection)
      rw [hnext, hconnections, hsame, hurl, eq_comm, List.all_eq_true]
      intro other hother
      rcases List.mem_or_eq_of_mem_set hother with hother | rfl
      · exact hall other hother
      · rw [hsame, hurl]

/-- The request that a move brings. -/
def ServiceMove.requested : ServiceMove → Option (JSString × Option JSString)
  | .request target host => some (target, host)
  | .turn _ => none

/-- The request of a connection. -/
def OpenConnection.request (connection : OpenConnection options) :
    JSString × Option JSString :=
  (connection.target, connection.host)

/-- A move opens the connection of its request, if it brings one, and keeps the others. -/
theorem step_requests (h : service.step environment move = some next) :
    next.connections.map OpenConnection.request =
      service.connections.map OpenConnection.request ++ move.requested.toList := by
  cases move with
  | request target host =>
      obtain ⟨-, hconnections, -⟩ := step_request h
      rw [hconnections, List.map_append]
      rfl
  | turn number =>
      obtain ⟨connection, resumed, exchange, -, hconnection, hresume, hconnections, -⟩ :=
        step_turn h
      obtain ⟨htarget, hhost, -, -⟩ := OpenConnection.resume_eq_some hresume
      have hsame : resumed.request = connection.request := by
        rw [OpenConnection.request, htarget, hhost, OpenConnection.request]
      obtain ⟨hlength, rfl⟩ := List.getElem?_eq_some_iff.mp hconnection
      have hkept := @List.set_getElem_self _
        (service.connections.map OpenConnection.request) number (by simpa using hlength)
      rw [List.getElem_map] at hkept
      rw [hconnections, List.map_set, hsame, hkept]
      exact (List.append_nil _).symm

end

/-! ## Runs of the process -/

section

variable {environment : ServiceEnvironment} {moves : List ServiceMove}
  {first service : Service options}

/-- A run opens a connection for each request, in the order in which they came in. -/
theorem requests_of_run (h : runEvents (Service.step environment) first moves = some service) :
    service.connections.map OpenConnection.request =
      first.connections.map OpenConnection.request ++ moves.filterMap ServiceMove.requested := by
  induction moves generalizing first with
  | nil =>
      obtain rfl : first = service := Option.some.inj h
      exact (List.append_nil _).symm
  | cons move rest ih =>
      obtain ⟨next, hnext, hrest⟩ := run_events_cons.mp h
      rw [ih hrest, step_requests hnext, List.append_assoc]
      cases move with
      | request target host => rfl
      | turn number => rfl

/-- In every state that the process reaches, it has a connection for each request and runs exactly
as long as all of them had a URL. A connection has been replied to once when its handler is over
and had a URL, and otherwise not at all. While the process runs, each handler that has not replied
can go on. -/
theorem service_safe
    (h : runEvents (Service.step environment) (.listening : Service options) moves =
      some service) :
    service.connections.map OpenConnection.request = moves.filterMap ServiceMove.requested ∧
      (service.running = true ↔ ∀ connection ∈ service.connections, connection.hasUrl) ∧
      (∀ connection ∈ service.connections, connection.replies.length =
        if connection.hasUrl && connection.isOver then 1 else 0) ∧
      ∀ number connection, service.running = true →
        service.connections[number]? = some connection →
        (service.step environment (.turn number) = none ↔ connection.replies.length = 1) := by
  have hrunning : service.running = service.connections.all OpenConnection.hasUrl :=
    run_events_preserves (fun _ _ _ hservice hstep => step_running hservice hstep) rfl h
  refine ⟨requests_of_run h, ?_, fun connection _ => connection.length_replies, ?_⟩
  · rw [hrunning, List.all_eq_true]
  · intro number connection hruns hconnection
    have hurl : connection.hasUrl = true := by
      rw [hruns] at hrunning
      exact List.all_eq_true.mp hrunning.symm connection (List.mem_of_getElem? hconnection)
    rw [connection.length_replies, hurl, Service.step, if_pos hruns, hconnection]
    cases hresume : connection.resume (environment service.history number) with
    | none =>
        have hover := OpenConnection.resume_eq_none.mp hresume
        simp [hover, hresume]
    | some resumed =>
        have hgoes : ¬ connection.isOver = true := by
          rw [← @OpenConnection.resume_eq_none _ connection
            (environment service.history number), hresume]
          exact Option.some_ne_none resumed
        simp [hgoes, hresume]

/-- A service whose resolver rejects every name. -/
def rejectingService : ServiceOptions where
  idna := .ascii
  servers := []
  resolver _ _ := .done (.error ⟨text "name contains an empty label"⟩)

/-- A request that is replied to, and one that is no URL. -/
def lastMoves : List ServiceMove :=
  [.request (text "/resolve?name=a..b") (some (text "localhost:8787")), .turn 0,
    .request (text "//") none]

theorem service_safe_example :
    ∃ service : Service rejectingService,
      runEvents (Service.step fun _ _ _ => .error ⟨text "no answer"⟩) .listening lastMoves =
          some service ∧
        service.running = false ∧ ¬ ∀ connection ∈ service.connections, connection.hasUrl := by
  refine ⟨_, rfl, rfl, ?_⟩
  rw [← (@service_safe rejectingService (fun _ _ _ => .error ⟨text "no answer"⟩) lastMoves _
    rfl).2.1]
  exact Bool.false_ne_true

end

end AgentResolver
