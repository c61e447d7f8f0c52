import AgentResolver.Environment
import AgentResolver.Interaction.Machine
import AgentResolver.Web.Utf8

/-!
# The event handlers of a SKILL.md request

`requestSkill` of `src/skill-fetch.js` as a machine. `handle` is the code: the handlers' variables
and the promise, for events in any order. `Connection` is Node's client: which events it can still
deliver for one request, given those before. It delivers the error of a destroyed request before
`close`, and a peer that closes after the response headers ends the response without `end`, and
without an error on the request.
-/

namespace AgentResolver

open JavaScript Web
open Interaction

/-- The events of one request. `dropped` is the close by the peer after the response headers and
before the end of the body; `requestSkill` has no handler for it, nor for `close`. -/
inductive RequestEvent where
  | timeout
  | error (message : JSString)
  | response (statusCode : Option Int)
  | data (chunk : List UInt8)
  | endOfBody
  | dropped
  | close
  deriving DecidableEq

/-- The variables of `requestSkill` and the promise it returns. -/
structure Handlers where
  statusCode : Option Int
  chunks : List (List UInt8)
  size : Nat
  aborted : Bool
  promise : Option Response

/-- The variables before any event. -/
def Handlers.initial : Handlers where
  statusCode := none
  chunks := []
  size := 0
  aborted := false
  promise := none

/-- `resolve(response)`: only the first call has an effect. -/
def Handlers.resolve (handlers : Handlers) (response : Response) : Handlers :=
  { handlers with promise := handlers.promise <|> some response }

/-- The handler of an event, with the message of the error it destroys the request with. -/
def handle (maxBytes : Nat) (handlers : Handlers) : RequestEvent → Handlers × Option JSString
  | .timeout => (handlers, some (text "SKILL.md fetch timed out"))
  | .error message => (handlers.resolve ⟨some 0, none, some message⟩, none)
  | .response statusCode => ({ handlers with statusCode := statusCode }, none)
  | .data chunk =>
      let size := handlers.size + chunk.length
      if size > maxBytes then
        ({ handlers with size := size, aborted := true },
          some (text "SKILL.md response is too large"))
      else ({ handlers with size := size, chunks := handlers.chunks ++ [chunk] }, none)
  | .endOfBody =>
      if handlers.aborted then (handlers, none)
      else
        let body := ofScalars (decode handlers.chunks.flatten)
        (handlers.resolve ⟨some (handlers.statusCode.getD 0), some body, none⟩, none)
  | .dropped => (handlers, none)
  | .close => (handlers, none)

/-- What Node's client has done for the request. `destroyed` is the message of the first
`req.destroy`. Two events of Node's client are left out: a `close` without a response and without an
error, which follows a 101 answer, and an `error` after the response headers on a request that was
not destroyed. -/
structure Connection where
  responded : Bool
  ended : Bool
  dropped : Bool
  destroyed : Option JSString
  failed : Bool
  closed : Bool

/-- A request that has just been sent. -/
def Connection.initial : Connection where
  responded := false
  ended := false
  dropped := false
  destroyed := none
  failed := false
  closed := false

/-- The body is still being read. -/
def Connection.reading (connection : Connection) : Bool :=
  connection.responded && !connection.ended && !connection.dropped

/-- Whether the client can deliver an event now. -/
def Connection.allows (connection : Connection) (event : RequestEvent) : Bool :=
  !connection.closed &&
    match event with
    | .timeout => true
    | .error message =>
        !connection.failed &&
          match connection.destroyed with
          | some destroyed => message = destroyed
          | none => !connection.responded
    | .response _ => !connection.responded && !connection.failed
    | .data _ => connection.reading
    | .endOfBody => connection.reading
    | .dropped => connection.reading
    -- `req.destroy(error)` makes the request emit `error`, before it closes.
    | .close =>
        (connection.destroyed.isNone || connection.failed) &&
          (connection.failed || connection.ended || connection.dropped)

/-- The connection after an event whose handler called `req.destroy` or not. -/
def Connection.after (connection : Connection) (event : RequestEvent)
    (destroy : Option JSString) : Connection where
  responded := connection.responded || event matches .response _
  ended := connection.ended || event matches .endOfBody
  dropped := connection.dropped || event matches .dropped
  destroyed := connection.destroyed <|> destroy
  failed := connection.failed || event matches .error _
  closed := connection.closed || event matches .close

structure RequestState where
  handlers : Handlers
  connection : Connection

def RequestState.initial : RequestState := ⟨.initial, .initial⟩

/-- Delivery of an event, if the client can deliver it. -/
def deliver (maxBytes : Nat) (state : RequestState) (event : RequestEvent) :
    Option RequestState :=
  if state.connection.allows event then
    let (handlers, destroy) := handle maxBytes state.handlers event
    some ⟨handlers, state.connection.after event destroy⟩
  else none

end AgentResolver
