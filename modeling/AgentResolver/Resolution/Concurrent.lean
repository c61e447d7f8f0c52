import AgentResolver.Interaction.Pool
import AgentResolver.Resolution.OpenCalls
import AgentResolver.Resolution.DnsResolution
import AgentResolver.Upstream.MockSource

/-!
# Concurrent resolvers

Several calls of `resolve` that are pending at the same time, with any options, interleaved at
their `await`s in any order. Over sources and fetchers without a memory each call ends as it would
alone (`concurrent_resolves_isolated`); over any others, each call is still a call of `resolve` over
some source and fetcher (`concurrent_resolves_explained`), so what holds of every single call holds
of every one of several.
-/

namespace AgentResolver

open JavaScript
open Interaction (Environment Pool Pool.start Pool.turn Pool.pool_explained Pool.pool_isolated
  Pool.turns_bounded runEvents)

variable {ι : Type}

/-- Calls of `resolve` before any of them has got an answer. -/
def startResolvers (json : Json) (platform : Platform) (calls : ι → ResolverOptions × JSString) :
    Pool ι Event Event.Answer JSError ResolveResult :=
  .start fun i => Async.resolve json platform (calls i).1 (calls i).2

/-! ## Sources and fetchers without a memory -/

/-- The methods of the source answer by their argument alone. -/
structure Source.IsMemoryless (source : Source) : Prop where
  resolveName : ∀ resolveName, source.resolveName = some resolveName →
    ∀ trace name, resolveName trace name = resolveName [] name
  resolveTxt : ∀ resolveTxt, source.resolveTxt = some resolveTxt →
    ∀ trace name, resolveTxt trace name = resolveTxt [] name

/-- Requests are answered by the URL and the options alone. -/
structure FetchPath.IsMemoryless (path : FetchPath) : Prop where
  fetcher : ∀ fetcher, path.fetcher = some fetcher →
    ∀ trace url options, fetcher trace url options = fetcher [] url options
  requestSkill : ∀ trace url options,
    path.requestSkill trace url options = path.requestSkill [] url options

theorem dns_memoryless (dns : DnsResolver) (servers : Option (List JSString)) :
    (dns.source servers).IsMemoryless where
  resolveName resolveName h trace name := by
    rw [← Option.some.inj h]
  resolveTxt resolveTxt h trace name := by
    rw [← Option.some.inj h]

theorem mock_memoryless (recordsByName : Properties MockValue) :
    (MockHandshakeSource.source recordsByName).IsMemoryless where
  resolveName resolveName h trace name := by
    rw [← Option.some.inj h]
  resolveTxt resolveTxt h trace name := by
    rw [← Option.some.inj h]

/-- What a source and a fetcher answer before anything has happened. -/
def firstAnswers (source : Source) (path : FetchPath) :
    (event : Event) → Except JSError event.Answer
  | .resolveName name =>
      (source.resolveName.map fun resolveName => resolveName [] name).getD
        (.error ⟨text "source.resolveName is not a function"⟩)
  | .resolveTxt name =>
      (source.resolveTxt.map fun resolveTxt => resolveTxt [] name).getD
        (.error ⟨text "source.resolveTxt is not a function"⟩)
  | .fetch url options =>
      (path.fetcher.map fun fetcher => fetcher [] url options).getD
        (.error ⟨text "options.fetcher.fetch is not a function"⟩)
  | .requestSkill url options => path.requestSkill [] url options

/-- The answers of a source and a fetcher without a memory are those they give at first. -/
theorem over_first_answers {options : ResolverOptions} (hsource : options.source.IsMemoryless)
    (hpath : options.fetchPath.IsMemoryless) :
    options.over (fun _ => firstAnswers options.source options.fetchPath) = options := by
  have hsame : (fun _ => firstAnswers options.source options.fetchPath) =
      answersOf options.source options.fetchPath := by
    funext trace event
    cases event with
    | resolveName name =>
        refine congrArg (Option.getD · _) (Option.map_congr fun resolveName hgiven => ?_)
        exact (hsource.resolveName resolveName hgiven trace name).symm
    | resolveTxt name =>
        refine congrArg (Option.getD · _) (Option.map_congr fun resolveTxt hgiven => ?_)
        exact (hsource.resolveTxt resolveTxt hgiven trace name).symm
    | fetch url fetchOptions =>
        refine congrArg (Option.getD · _) (Option.map_congr fun fetcher hgiven => ?_)
        exact (hpath.fetcher fetcher hgiven trace url fetchOptions).symm
    | requestSkill url fetchOptions => exact (hpath.requestSkill trace url fetchOptions).symm
  rw [hsame, over_answers_of]

/-! ## Schedules of calls -/

variable [DecidableEq ι] {json : Json} {platform : Platform}
  {calls : ι → ResolverOptions × JSString} {schedule : List ι}
  {pool : Pool ι Event Event.Answer JSError ResolveResult}

/-- Whatever the sources and fetchers remember, in every schedule each call does what it does alone
over some source and fetcher with the same methods: its events are the first ones of that call, and
it has ended, with the same outcome, if and only if these are all of them. -/
theorem concurrent_resolves_explained {environment : Environment ι Event Event.Answer JSError}
    (h : runEvents (Pool.turn environment) (startResolvers json platform calls) schedule =
      some pool) (i : ι) :
    ∃ answers more, (resolve json platform ((calls i).1.over answers) (calls i).2 []).2 =
        (pool.threads i).events ++ more ∧
      (more = [] ↔ (pool.threads i).outcome.isSome) ∧
      ∀ outcome, (pool.threads i).outcome = some outcome →
        (resolve json platform ((calls i).1.over answers) (calls i).2 []).1 = outcome := by
  obtain ⟨answers, more, hmore⟩ :=
    Pool.pool_explained h i fun _ _ => .error ⟨text "no answer"⟩
  rw [Async.run_resolve] at hmore
  exact ⟨answers, more, hmore⟩

/-- Two calls over DNS, of which each has had one answer. -/
def twoCalls (first : Bool) : ResolverOptions × JSString :=
  (optionsOver (txtOnlyResolver (text "example") []), text (if first then "example" else "other"))

theorem concurrent_resolves_explained_example :
    ∃ pool, runEvents (Pool.turn fun history _ =>
          if history.isEmpty then
            firstAnswers (twoCalls true).1.source (twoCalls true).1.fetchPath
          else fun _ => .error ⟨text "out of memory"⟩)
        (startResolvers .rejecting .ascii twoCalls) [true, false] = some pool ∧
      ∃ answers, (resolve .rejecting .ascii ((twoCalls false).1.over answers) (twoCalls false).2
        []).1 = .error ⟨text "out of memory"⟩ := by
  refine ⟨_, rfl, ?_⟩
  obtain ⟨answers, -, -, -, houtcome⟩ := @concurrent_resolves_explained _ _ .rejecting .ascii
    twoCalls [true, false] _ (fun history _ =>
      if history.isEmpty then firstAnswers (twoCalls true).1.source (twoCalls true).1.fetchPath
      else fun _ => .error ⟨text "out of memory"⟩) rfl false
  exact ⟨answers, houtcome _ rfl⟩

/-- Over one source and one fetcher without a memory, in every schedule each call makes the calls
of its solitary run in their order, takes at most that many turns, has ended when it has taken all
of them, and then has the outcome of the solitary run. -/
theorem concurrent_resolves_isolated {source : Source} {path : FetchPath}
    (hsource : source.IsMemoryless) (hpath : path.IsMemoryless)
    (hcalls : ∀ i, (calls i).1.source = source ∧ (calls i).1.fetchPath = path)
    (h : runEvents (Pool.turn fun _ _ => firstAnswers source path)
      (startResolvers json platform calls) schedule = some pool) (i : ι) :
    let alone := resolve json platform (calls i).1 (calls i).2 []
    (∃ more, alone.2 = (pool.threads i).events ++ more) ∧
      schedule.count i ≤ alone.2.length ∧
      (schedule.count i = alone.2.length ↔ (pool.threads i).outcome.isSome) ∧
      ∀ outcome, (pool.threads i).outcome = some outcome → alone.1 = outcome := by
  obtain ⟨rfl, rfl⟩ := hcalls i
  obtain ⟨more, hmore, -, houtcome⟩ := Pool.pool_isolated h i
  obtain ⟨hbound, hended⟩ := Pool.turns_bounded h i
  rw [Async.run_resolve, over_first_answers hsource hpath] at hmore houtcome hbound hended
  exact ⟨⟨more, hmore⟩, hbound, hended, houtcome⟩

theorem concurrent_resolves_isolated_example :
    ∃ pool, runEvents (Pool.turn fun _ _ =>
          firstAnswers (twoCalls true).1.source (twoCalls true).1.fetchPath)
        (startResolvers .rejecting .ascii twoCalls) [true, false, true] = some pool ∧
      2 ≤ (resolve .rejecting .ascii (twoCalls true).1 (twoCalls true).2 []).2.length := by
  refine ⟨_, rfl, ?_⟩
  exact (@concurrent_resolves_isolated _ _ .rejecting .ascii twoCalls [true, false, true] _ _ _
    (dns_memoryless _ _) ⟨fun fetcher h => (by cases h), fun _ _ _ => rfl⟩ (fun _ => ⟨rfl, rfl⟩) rfl
    true).2.1

end AgentResolver
