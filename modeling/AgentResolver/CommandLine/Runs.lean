import AgentResolver.CommandLine.Parse
import AgentResolver.Service.Queries
import AgentResolver.Service.Replies

/-!
# The command line and the service

The program of `src/cli.js`, and its agreement with the service of `src/server.js`: a name that is
given on the command line and the same name in a request have the same result
(`front_ends_agree`).
-/

namespace AgentResolver

open JavaScript Web CommandLine
open Interaction (Run.call Run.attempt Run.lift Run.bind_apply)

/-- The options that the program passes to `resolveAgentIdentity`. -/
structure CliOptions where
  dns : Option (List JSString)
  forceSkillDiscovery : Option Bool

/-- What the program does to the outside world. A result is written as its JSON text. -/
inductive CliEvent where
  | resolve (name : JSString) (options : CliOptions)
  | log (message : JSString)
  | logResult (result : ResolveResult)
  | logError (message : JSString)

abbrev CliRun (α : Type) := Interaction.Run CliEvent JSError α

def printHelp : CliRun Unit :=
  Run.call (.log (text "Usage: npm run resolve -- <handshake-name> [--server <dns-server>] [--force-skill-discovery]

Examples:
  npm run resolve -- alice
  npm run resolve -- alice --server 127.0.0.1:5350
  npm run resolve -- alice --force-skill-discovery")) fun _ => .ok ()

/-- The options object that the program writes. -/
def CliArgs.options (args : CliArgs) : CliOptions where
  dns := if args.servers.isEmpty then none else some args.servers
  forceSkillDiscovery := args.forceSkillDiscovery

/-- The program: it returns the code of `process.exit`. -/
def runCli (resolveAgentIdentity : JSString → CliOptions → Except JSError ResolveResult)
    (argv : List JSString) : CliRun Nat := do
  match ← Run.attempt (do
      let args ← Run.lift (parseArgs argv)
      if args.help || isFalsy args.name then
        printHelp
        return if args.help then 0 else 1
      let name := args.name.getD []
      let result ← Run.call (.resolve name args.options) fun _ =>
        resolveAgentIdentity name args.options
      Run.call (.logResult result) fun _ => .ok ()
      return if result.status = .found then 0 else 2) with
  | .ok code => return code
  | .error error =>
      Run.call (.logError error.message) fun _ => .ok ()
      return 1

/-! ## Agreement with the service -/

/-- The exit code for a reply. -/
def Reply.exitCode (reply : Reply) : Nat :=
  if reply.statusCode = 200 then 0 else if reply.statusCode = 404 then 2 else 1

/-- The output for a reply. -/
def ReplyBody.output : ReplyBody → CliEvent
  | .error _ message => .logError message
  | .result found => .logResult found

variable (system : System) (json : Json) (platform : Platform)
  (answers : Interaction.Answers Event Event.Answer JSError)

/-- The options object as `AgentIdentityResolver` reads it. -/
def CliOptions.agentOptions (options : CliOptions) : AgentOptions :=
  { AgentOptions.empty with
    dns := options.dns.map fun servers => ⟨none, some servers⟩
    forceSkillDiscovery := options.forceSkillDiscovery }

/-- The outcomes of the resolver for the program when sources and fetchers give the answers. -/
def cliOutcomes (name : JSString) (options : CliOptions) : Except JSError ResolveResult :=
  (resolveOver system json platform answers name options.agentOptions []).1

variable {system json platform answers}

/-- A flag that is not given is one that is not set. -/
theorem cli_outcomes_eq {cli : CliOptions} {server : ServerOptions} (hdns : cli.dns = server.dns)
    (hforce : cli.forceSkillDiscovery.getD false = server.forceSkillDiscovery) (name : JSString) :
    cliOutcomes system json platform answers name cli =
      outcomesOver system json platform answers name server := by
  have hresolver : newAgentIdentityResolver system cli.agentOptions =
      newAgentIdentityResolver system server.agentOptions := by
    unfold newAgentIdentityResolver CliOptions.agentOptions ServerOptions.agentOptions
    rw [hdns, ← hforce]
    cases cli.forceSkillDiscovery with
    | none => rfl
    | some flag => rfl
  rw [cliOutcomes, outcomesOver, resolveOver, resolveOver, hresolver]

/-- A run with a name. -/
theorem run_cli_named {resolveAgentIdentity : JSString → CliOptions → Except JSError ResolveResult}
    {argv : List JSString} {args : CliArgs} {name : JSString} (hargs : parseArgs argv = .ok args)
    (hhelp : args.help = false) (hname : args.name = some name) (hne : name ≠ []) :
    runCli resolveAgentIdentity argv [] =
      let reply := resolvedReply (resolveAgentIdentity name args.options)
      (.ok reply.exitCode, [.resolve name args.options, reply.body.output]) := by
  have hnamed : isFalsy (some name) = false :=
    Bool.eq_false_iff.mpr fun hempty => hne (List.isEmpty_iff.mp hempty)
  cases h : resolveAgentIdentity name args.options with
  | error error =>
      simp [runCli, hargs, hhelp, hname, hnamed, h, Run.bind_apply, resolvedReply, Reply.exitCode,
        ReplyBody.output]
  | ok result =>
      by_cases hfound : result.status = .found
      · simp [runCli, hargs, hhelp, hname, hnamed, h, Run.bind_apply, resolvedReply,
          Reply.exitCode, ReplyBody.output, hfound]
      · simp [runCli, hargs, hhelp, hname, hnamed, h, Run.bind_apply, resolvedReply,
          Reply.exitCode, ReplyBody.output, hfound]

/-- Whatever answers the lookups and fetches get: a command line with a name, in whatever order its
options stand, and a request for the same name with the same flag have the same outcome, if the
service was started with the servers of the command line. The exit codes 0, 2 and 1 are the status
codes 200, 404 and 400, and the program writes the result or the message that is sent. -/
theorem front_ends_agree {argv : List JSString} {args : CliArgs} {name : ScalarString}
    {fields : List (ScalarString × ScalarString)} {host : Option JSString} {base : Url}
    (hargs : parseArgs argv = .ok args) (hhelp : args.help = false)
    (hname : args.name = some (ofScalars name)) (hne : name ≠ [])
    (hfield : fields.lookup "name".toList = some name)
    (hforce : args.forceSkillDiscovery.getD false =
      (requestedOptions args.servers fields).forceSkillDiscovery)
    (hbase : newUrl platform.idna (requestBase host) = some base) :
    ∃ reply, repliesAlone system json platform args.servers answers (encodedTarget fields) host =
        [reply] ∧
      runCli (cliOutcomes system json platform answers) argv [] =
        (.ok reply.exitCode, [.resolve (ofScalars name) args.options, reply.body.output]) := by
  have hnonempty : ofScalars name ≠ [] := by
    intro hempty
    exact hne (of_scalars_injective (hempty.trans rfl))
  have hsame := @cli_outcomes_eq system json platform answers args.options
    (requestedOptions args.servers fields) rfl hforce (ofScalars name)
  refine ⟨resolvedReply (cliOutcomes system json platform answers (ofScalars name) args.options),
    ?_, run_cli_named hargs hhelp hname hnonempty⟩
  rw [repliesAlone, encoded_request_run hbase args.servers _ hfield hne, hsame]
  rfl

theorem front_ends_agree_example :
    ∃ reply, repliesAlone .offline .rejecting .ascii [text "localhost"]
        (fun _ _ => .error ⟨text "no answer"⟩)
        (encodedTarget [("name".toList, "alice".toList)]) none = [reply] ∧
      runCli (cliOutcomes .offline .rejecting .ascii fun _ _ => .error ⟨text "no answer"⟩)
          [text "--server", text "localhost", text "alice"] [] =
        (.ok reply.exitCode, [.resolve (ofScalars "alice".toList)
          ⟨some [text "localhost"], none⟩, reply.body.output]) :=
  @front_ends_agree .offline .rejecting .ascii (fun _ _ => .error ⟨text "no answer"⟩)
    [text "--server", text "localhost", text "alice"]
    ⟨[text "localhost"], some (text "alice"), false, none⟩ "alice".toList
    [("name".toList, "alice".toList)] none _ rfl rfl rfl (by decide) rfl rfl rfl

end AgentResolver
