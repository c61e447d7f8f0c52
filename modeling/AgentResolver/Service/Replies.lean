import AgentResolver.Service.Connections

/-!
# What the service replies

The service with the resolver of the repository. A reply under any interleaving is one that the
handler of its request sends alone (`service_replies`); where lookups and fetches always have the
same answers it is the very one (`service_isolated`).
-/

namespace AgentResolver

open JavaScript Web
open Interaction (Answers.restrict Exchange Process.run Thread.answered_by_fixed runEvents
  run_events_preserves)

variable (system : System) (json : Json) (platform : Platform) (servers : List JSString)

/-- The options object that the handler writes. -/
def ServerOptions.agentOptions (options : ServerOptions) : AgentOptions :=
  { AgentOptions.empty with
    dns := options.dns.map fun servers => ⟨none, some servers⟩
    forceSkillDiscovery := some options.forceSkillDiscovery }

/-- The service as `src/server.js` starts it. -/
def resolverService : ServiceOptions where
  idna := platform.idna
  servers := servers
  resolver name options :=
    Async.resolveAgentIdentity system json platform name options.agentOptions

/-- The outcomes of the resolver when sources and fetchers give the answers. -/
def outcomesOver (answers : Interaction.Answers Event Event.Answer JSError) :
    ResolveAgentIdentity :=
  fun name options => (resolveOver system json platform answers name options.agentOptions []).1

/-- What is sent for one request alone, when sources and fetchers give the answers. -/
def repliesAlone (answers : Interaction.Answers Event Event.Answer JSError) (target : JSString)
    (host : Option JSString) : List Reply :=
  (handleRequest platform.idna servers (outcomesOver system json platform answers) target host
    []).2.filterMap sentReply

variable {system json platform servers}

/-- A handler alone sends what `handleRequest` sends. -/
theorem run_handler_replies
    (answers : Interaction.Answers ServiceEvent ServiceEvent.Answer JSError) (target : JSString)
    (host : Option JSString) :
    ((Async.handleRequest platform.idna servers
        (resolverService system json platform servers).resolver target host).run answers
        []).2.filterMap ServiceEvent.reply =
      repliesAlone system json platform servers (answers.restrict .waited ServiceEvent.read)
        target host := by
  have houtcomes : (fun name options => (resolverRun answers
      (resolverService system json platform servers).resolver name options).1) =
        outcomesOver system json platform (answers.restrict .waited ServiceEvent.read) := by
    funext name options
    exact congrArg (fun run => (run []).1)
      (Async.run_resolve_agent_identity system json platform _ name options.agentOptions)
  rw [(handler_replies answers _ _ _ _ _).2, houtcomes]
  rfl

variable {connection : OpenConnection (resolverService system json platform servers)}

/-- Every reply, in whatever state of the process and after whatever answers, is the reply to the
request of its connection alone, for a resolver whose sources and fetcher give some answers. -/
theorem service_replies {reply : Reply} (h : reply ∈ connection.replies) :
    ∃ answers, repliesAlone system json platform servers answers connection.target
      connection.host = [reply] := by
  obtain ⟨answers, more, hmore, hover, -⟩ := connection.exists_run
  have hlength := connection.length_replies
  split at hlength
  · rename_i hreplied
    rw [Bool.and_eq_true] at hreplied
    obtain ⟨only, honly⟩ := List.length_eq_one_iff.mp hlength
    obtain rfl : reply = only := by
      rw [honly] at h
      exact List.mem_singleton.mp h
    rw [hover.mpr hreplied.2, List.append_nil] at hmore
    refine ⟨_, (run_handler_replies answers _ _).symm.trans ?_⟩
    rw [← honly]
    exact congrArg (List.filterMap ServiceEvent.reply) hmore
  · rw [List.length_eq_zero_iff.mp hlength] at h
    cases h

/-- A system without a network. -/
def System.offline : System where
  newResolver :=
    { outcomes :=
        { resolve4 _ := .rejected (some (text "ECONNREFUSED")) (text "queryA ECONNREFUSED")
          resolve6 _ := .rejected (some (text "ECONNREFUSED")) (text "queryAaaa ECONNREFUSED")
          resolveTxt _ := .rejected (some (text "ECONNREFUSED")) (text "queryTxt ECONNREFUSED") }
      setServers _ := .error ⟨text "Invalid IP address"⟩ }
  requestSkill _ _ _ := .error ⟨text "connect ECONNREFUSED"⟩

/-- Servers that are no addresses are replied to with 400. -/
theorem service_replies_example :
    ∃ answers, repliesAlone .offline .rejecting .ascii [text "localhost"] answers
      (text "/resolve?name=alice") none =
        [⟨400, .error (text "bad_request") (text "Invalid IP address")⟩] := by
  obtain ⟨resumed, hresumed⟩ : ∃ resumed, (OpenConnection.accept (text "/resolve?name=alice") none :
      OpenConnection (resolverService .offline .rejecting .ascii [text "localhost"])).resume
        (fun _ => .error ⟨text "no answer"⟩) = some resumed := ⟨_, rfl⟩
  have hreply : ⟨400, .error (text "bad_request") (text "Invalid IP address")⟩ ∈
      resumed.2.replies := by
    rw [← Option.some.inj hresumed]
    exact List.mem_singleton_self _
  have halone := service_replies hreply
  rw [← Option.some.inj hresumed] at halone
  exact halone

/-! ## Lookups that always have the same answers -/

/-- An environment without a memory: sends succeed. -/
def answering (fixed : (event : Event) → Except JSError event.Answer) :
    (event : ServiceEvent) → Except JSError event.Answer
  | .waited event => fixed event
  | .sent _ => .ok ()

variable {fixed : (event : Event) → Except JSError event.Answer} {moves : List ServiceMove}
  {service : Service (resolverService system json platform servers)}

/-- All exchanges of the connections have the answers of the environment. -/
theorem answers_of_moves {options : ServiceOptions} {service : Service options}
    (h : runEvents (Service.step fun _ _ => answering fixed) .listening moves = some service) :
    ∀ connection ∈ service.connections, ∀ exchange ∈ connection.thread.exchanges,
      exchange.2 = answering fixed exchange.1 := by
  refine @run_events_preserves _ _ (Service.step fun _ _ => answering fixed)
    (fun service : Service options => ∀ connection ∈ service.connections,
      ∀ exchange ∈ connection.thread.exchanges, exchange.2 = answering fixed exchange.1)
    ?_ _ _ _ (fun connection hmem => absurd hmem List.not_mem_nil) h
  intro service move next hservice hstep connection hmem exchange hexchange
  cases move with
  | request target host =>
      obtain ⟨-, hconnections, -⟩ := step_request hstep
      rw [hconnections, List.mem_append, List.mem_singleton] at hmem
      rcases hmem with hmem | rfl
      · exact hservice connection hmem exchange hexchange
      · exact absurd hexchange List.not_mem_nil
  | turn number =>
      obtain ⟨before, resumed, last, -, hbefore, hresume, hconnections, -⟩ := step_turn hstep
      rw [hconnections] at hmem
      rcases List.mem_or_eq_of_mem_set hmem with hmem | rfl
      · exact hservice connection hmem exchange hexchange
      · obtain ⟨-, -, hexchanges, hlast⟩ := OpenConnection.resume_eq_some hresume
        rw [hexchanges, List.mem_append, List.mem_singleton] at hexchange
        rcases hexchange with hexchange | rfl
        · exact hservice before (List.mem_of_getElem? hbefore) exchange hexchange
        · exact hlast

/-- Where lookups and fetches always have the same answers, a connection whose handler is over has
been sent what its request is sent alone, however the requests were interleaved. -/
theorem service_isolated
    (h : runEvents (Service.step fun _ _ => answering fixed) .listening moves = some service)
    (hmem : connection ∈ service.connections) :
    connection.replies =
      if connection.isOver then
        repliesAlone system json platform servers (fun _ => fixed) connection.target
          connection.host
      else [] := by
  obtain ⟨more, hmore, hover, -⟩ :=
    (Thread.answered_by_fixed (answers_of_moves h connection hmem)).run
  rw [connection.handles] at hmore
  have halone := @run_handler_replies system json platform servers (fun _ => answering fixed)
    connection.target connection.host
  have hlength := connection.length_replies
  split
  · rename_i hended
    rw [hover.mpr hended, List.append_nil] at hmore
    have hrestrict : Answers.restrict ServiceEvent.waited ServiceEvent.read
        (fun _ => answering fixed) = fun _ => fixed := by
      funext trace event
      show (fixed event).map (ServiceEvent.read event) = fixed event
      cases fixed event with
      | ok answer => rfl
      | error error => rfl
    rw [hrestrict] at halone
    rw [← halone]
    exact congrArg (List.filterMap ServiceEvent.reply) hmore.symm
  · rename_i hpending
    rw [Bool.not_eq_true] at hpending
    rw [hpending, Bool.and_false] at hlength
    exact List.length_eq_zero_iff.mp hlength

theorem service_isolated_example :
    ∃ service : Service (resolverService .offline .rejecting .ascii [text "localhost"]),
      runEvents (Service.step fun _ _ => answering fun _ => .error ⟨text "no answer"⟩) .listening
          [.request (text "/resolve?name=alice") none, .request (text "/") none, .turn 1] =
        some service ∧
      service.connections.map OpenConnection.replies =
        [[], repliesAlone .offline .rejecting .ascii [text "localhost"]
          (fun _ _ => .error ⟨text "no answer"⟩) (text "/") none] := by
  obtain ⟨service, hservice⟩ : ∃ service : Service
      (resolverService .offline .rejecting .ascii [text "localhost"]),
      runEvents (Service.step fun _ _ => answering fun _ => .error ⟨text "no answer"⟩) .listening
          [.request (text "/resolve?name=alice") none, .request (text "/") none, .turn 1] =
        some service := ⟨_, rfl⟩
  have hall : ∀ connection ∈ service.connections, _ :=
    fun connection hmem => service_isolated hservice hmem
  refine ⟨service, hservice, ?_⟩
  rw [List.map_congr_left hall, ← Option.some.inj hservice]
  rfl

end AgentResolver
