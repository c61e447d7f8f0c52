import AgentResolver.Resolution.Async
import AgentResolver.Skill.Requests

/-!
# Calls of `resolve` that may stay open

A call of `resolve`, as far as it has come. Nothing promises that a lookup or a request is ever
answered: after a dropped response the promise of `requestSkill` stays pending, and the call of
`resolve` with it. What is said of a `ResolveCall` is said of such calls too. Some environment has
given the answers so far, and over it the run of `resolve` begins with the calls that were made.
-/

namespace AgentResolver

open JavaScript
open Interaction (Exchange MeetsAll Thread Thread.exists_ended)

/-! ## Sources and fetchers as environments -/

/-- What a source and a fetcher answer. -/
def answersOf (source : Source) (path : FetchPath) : Interaction.Answers Event Event.Answer JSError
  | trace, .resolveName name =>
      (source.resolveName.map fun resolveName => resolveName trace name).getD
        (.error ⟨text "source.resolveName is not a function"⟩)
  | trace, .resolveTxt name =>
      (source.resolveTxt.map fun resolveTxt => resolveTxt trace name).getD
        (.error ⟨text "source.resolveTxt is not a function"⟩)
  | trace, .fetch url options =>
      (path.fetcher.map fun fetcher => fetcher trace url options).getD
        (.error ⟨text "options.fetcher.fetch is not a function"⟩)
  | trace, .requestSkill url options => path.requestSkill trace url options

/-- A method that is replaced by itself, if there is one. -/
theorem map_replaced {β : Type} {method : Option β} {replacement : β}
    (h : ∀ given, method = some given → given = replacement) :
    method.map (fun _ => replacement) = method := by
  cases method with
  | none => rfl
  | some given => exact congrArg some (h given rfl).symm

/-- The answer to a lookup is that of the source. A request may be answered with anything. -/
def AnswersLookups (source : Source) (path : FetchPath) (trace : Trace) (event : Event)
    (answer : Except JSError event.Answer) : Prop :=
  requestedUrl event = none → answer = answersOf source path trace event

/-- The source over an environment that answers as it does. -/
theorem source_over {source : Source} {path : FetchPath}
    {answers : Interaction.Answers Event Event.Answer JSError}
    (h : ∀ trace event, AnswersLookups source path trace event (answers trace event)) :
    source.over answers = source := by
  have hname : (source.over answers).resolveName = source.resolveName := by
    refine map_replaced fun resolveName hgiven => ?_
    funext trace name
    rw [h trace (.resolveName name) rfl, answersOf, hgiven]
    rfl
  have htxt : (source.over answers).resolveTxt = source.resolveTxt := by
    refine map_replaced fun resolveTxt hgiven => ?_
    funext trace name
    rw [h trace (.resolveTxt name) rfl, answersOf, hgiven]
    rfl
  exact congrArg₂ (fun resolveName resolveTxt =>
    Source.mk resolveName resolveTxt source.sourceInfo) hname htxt

/-- The fetcher over its own answers. -/
theorem path_over (source : Source) (path : FetchPath) :
    path.over (answersOf source path) = path := by
  have hfetcher : (path.over (answersOf source path)).fetcher = path.fetcher := by
    refine map_replaced fun fetcher hgiven => ?_
    funext trace url options
    rw [answersOf, hgiven]
    rfl
  exact congrArg (fun fetcher => FetchPath.mk fetcher path.requestSkill) hfetcher

/-- Any options are options over the answers of their source and their fetcher. -/
theorem over_answers_of (options : ResolverOptions) :
    options.over (answersOf options.source options.fetchPath) = options := by
  rw [ResolverOptions.over, path_over,
    @source_over options.source options.fetchPath _ fun _ _ _ => rfl]

/-! ## Calls as far as they have come -/

/-- A call of `resolve` as far as it has come: its promise is settled, or it waits for an answer. -/
structure ResolveCall (json : Json) (platform : Platform) (options : ResolverOptions)
    (input : JSString) where
  thread : Thread Event Event.Answer JSError ResolveResult
  resolves : thread.origin = Async.resolve json platform options input

namespace ResolveCall

variable {json : Json} {platform : Platform} {options : ResolverOptions} {input : JSString}
  {call : ResolveCall json platform options input}
  {answers : Interaction.Answers Event Event.Answer JSError}

/-- What the promise is settled with, if it is. -/
def outcome (call : ResolveCall json platform options input) :
    Option (Except JSError ResolveResult) := call.thread.outcome

/-- The lookups and requests so far, also the one that waits for an answer. -/
def events (call : ResolveCall json platform options input) : Trace := call.thread.asked

/-- The exchanges so far. -/
def exchanges (call : ResolveCall json platform options input) :
    List (Exchange Event Event.Answer JSError) := call.thread.exchanges

/-- The environment has given the answers so far. -/
def AnsweredBy (call : ResolveCall json platform options input)
    (answers : Interaction.Answers Event Event.Answer JSError) : Prop :=
  call.thread.AnsweredBy answers

/-- The run of `resolve` over the answers begins with the lookups and requests so far. -/
theorem AnsweredBy.begins (h : call.AnsweredBy answers) :
    call.events <+: (resolve json platform (options.over answers) input []).2 := by
  have hrun := Thread.AnsweredBy.asked_run h
  rw [call.resolves, Async.run_resolve] at hrun
  exact hrun

/-- A call whose promise is settled is the run of `resolve` over its answers. -/
theorem AnsweredBy.settled {outcome : Except JSError ResolveResult} (h : call.AnsweredBy answers)
    (houtcome : call.outcome = some outcome) :
    resolve json platform (options.over answers) input [] = (outcome, call.events) := by
  have hrun := Thread.AnsweredBy.run_ended h houtcome
  rw [call.resolves, Async.run_resolve] at hrun
  rw [hrun, events, Thread.asked_of_outcome houtcome]

theorem exists_answered_by (call : ResolveCall json platform options input) :
    ∃ answers, call.AnsweredBy answers :=
  call.thread.exists_answered_by fun _ _ => .error ⟨text "no answer"⟩

/-- Every run of `resolve` is that of a call whose promise is settled. -/
theorem exists_run (json : Json) (platform : Platform) (options : ResolverOptions)
    (input : JSString) :
    ∃ call : ResolveCall json platform options input,
      call.AnsweredBy (answersOf options.source options.fetchPath) ∧
        call.outcome = some (resolve json platform options input []).1 ∧
        call.events = (resolve json platform options input []).2 := by
  obtain ⟨thread, horigin, hanswers, houtcome, -⟩ :=
    Thread.exists_ended (Async.resolve json platform options input)
      (answersOf options.source options.fetchPath)
  rw [Async.run_resolve, over_answers_of] at houtcome
  have hsettled := @AnsweredBy.settled json platform options input ⟨thread, horigin⟩ _ _ hanswers
    houtcome
  rw [over_answers_of] at hsettled
  exact ⟨⟨thread, horigin⟩, hanswers, houtcome, (congrArg Prod.snd hsettled).symm⟩

end ResolveCall

end AgentResolver
