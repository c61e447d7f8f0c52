import AgentResolver.Service.Queries
import AgentResolver.Skill.Planning

/-!
# The `Host` header

The handler reads every request target against a base that it makes from the `Host` header. The
header decides only whether there is a reply: for a target that starts with a slash, any two headers
that make a valid base get the same reply (`host_header_irrelevant`).
-/

namespace AgentResolver

open JavaScript Web
open Interaction (Run.bind_ok Run.bind_error Run.lift_apply)

variable {idna : Idna} {url url' : Url}

/-- The two URLs have the parts that the handler reads in common. -/
structure SameTarget (url url' : Url) : Prop where
  scheme : url.scheme = url'.scheme
  path : url.path = url'.path
  query : url.query = url'.query

theorem SameTarget.special (h : SameTarget url url') : url.isSpecial = url'.isSpecial :=
  congrArg isSpecialScheme h.scheme

theorem SameTarget.fragment (h : SameTarget url url') (input : ScalarString) :
    SameTarget (parseFragment url input) (parseFragment url' input) :=
  ⟨h.scheme, h.path, h.query⟩

theorem SameTarget.query_set (h : SameTarget url url') (input : ScalarString) :
    SameTarget (parseQuery url input) (parseQuery url' input) := by
  have hset : SameTarget
      { url with query := some (percentEncode
        (if url.isSpecial then inSpecialQuerySet else inQuerySet) (input.takeWhile (· != '#'))) }
      { url' with query := some (percentEncode
        (if url'.isSpecial then inSpecialQuerySet else inQuerySet)
          (input.takeWhile (· != '#'))) } :=
    ⟨h.scheme, h.path, by rw [h.special]⟩
  unfold parseQuery
  cases input.dropWhile (· != '#') with
  | nil => exact hset
  | cons c fragment => exact hset.fragment fragment

theorem SameTarget.afterPath (h : SameTarget url url') (input : ScalarString) :
    SameTarget (parseAfterPath url input) (parseAfterPath url' input) := by
  cases input with
  | nil => exact h
  | cons c rest =>
      rw [parseAfterPath, parseAfterPath]
      by_cases hc : c = '?'
      · rw [if_pos hc, if_pos hc]
        exact h.query_set rest
      · rw [if_neg hc, if_neg hc]
        exact h.fragment rest

/-- The path state starts over with the path. -/
theorem parse_path_target (hscheme : url.scheme = url'.scheme) (hquery : url.query = url'.query)
    (path : List ScalarString) (input : ScalarString) :
    SameTarget (parsePath url path input) (parsePath url' path input) := by
  have hspecial : url.isSpecial = url'.isSpecial := congrArg isSpecialScheme hscheme
  have hset (list : List ScalarString) : SameTarget { url with path := .segments list }
      { url' with path := .segments list } := ⟨hscheme, rfl, hquery⟩
  have hwalk : walkPath url.scheme path
        ((input.takeWhile fun c => c != '?' && c != '#').splitOnP (isSlash url.isSpecial)) =
      walkPath url'.scheme path
        ((input.takeWhile fun c => c != '?' && c != '#').splitOnP (isSlash url'.isSpecial)) := by
    rw [hspecial, hscheme]
  unfold parsePath
  dsimp only
  rw [hwalk]
  exact (hset _).afterPath _

/-- A rooted reference is the same target for all bases of one scheme, or none is accepted. -/
theorem rooted_target {base base' : Url} (hscheme : base.scheme = base'.scheme)
    (hbase : base.IsHttp) (hbase' : base'.IsHttp) (rest : ScalarString) :
    (parseUrl idna (some base) ('/' :: rest) = none ∧
        parseUrl idna (some base') ('/' :: rest) = none) ∨
      ∃ url url', parseUrl idna (some base) ('/' :: rest) = some url ∧
        parseUrl idna (some base') ('/' :: rest) = some url' ∧ SameTarget url url' := by
  have hspecial : base.isSpecial = base'.isSpecial := congrArg isSpecialScheme hscheme
  have hauthority (input : ScalarString) :
      (parseAuthority idna (.ofScheme base.scheme) input = none ∧
          parseAuthority idna (.ofScheme base'.scheme) input = none) ∨
        ∃ url url', parseAuthority idna (.ofScheme base.scheme) input = some url ∧
          parseAuthority idna (.ofScheme base'.scheme) input = some url' ∧ SameTarget url url' := by
    rw [← hscheme]
    cases hparse : parseAuthority idna (.ofScheme base.scheme) input with
    | none => exact Or.inl ⟨rfl, rfl⟩
    | some url => exact Or.inr ⟨url, url, rfl, rfl, rfl, rfl, rfl⟩
  have hpath (input : ScalarString) : SameTarget (parsePath base.withoutTail [] input)
      (parsePath base'.withoutTail [] input) :=
    @parse_path_target base.withoutTail base'.withoutTail hscheme rfl [] input
  rw [parse_rooted hbase, parse_rooted hbase']
  cases stripTail rest with
  | nil => exact Or.inr ⟨_, _, rfl, rfl, hpath []⟩
  | cons c tail =>
      rw [parseRelativeSlash, parseRelativeSlash, ← hspecial]
      by_cases hslashes : (base.isSpecial && isSlash true c) = true
      · rw [if_pos hslashes, if_pos hslashes]
        exact hauthority _
      · rw [if_neg hslashes, if_neg hslashes]
        by_cases hslash : c = '/'
        · rw [if_pos hslash, if_pos hslash]
          exact hauthority _
        · rw [if_neg hslash, if_neg hslash]
          exact Or.inr ⟨_, _, rfl, rfl, hpath _⟩

/-- The handler reads the path and the query only. -/
theorem handle_target (h : SameTarget url url') (servers : List JSString)
    (resolveAgentIdentity : ResolveAgentIdentity) :
    handleUrl servers resolveAgentIdentity url = handleUrl servers resolveAgentIdentity url' := by
  have hparam (name : JSString) : url.searchParam name = url'.searchParam name := by
    rw [Url.searchParam, Url.searchParam, h.query]
  have hpath : url.pathname = url'.pathname := by
    rw [Url.pathname, Url.pathname, h.path]
  unfold handleUrl booleanParam
  rw [hpath, hparam, hparam, hparam]

/-- Two `Host` headers that make a valid base get the same run of the handler for every target that
starts with a slash: the same question to the resolver and the same reply, or none. -/
theorem host_header_irrelevant (idna : Idna) (servers : List JSString)
    (resolveAgentIdentity : ResolveAgentIdentity) (rest : JSString) {host host' : Option JSString}
    (hhost : (newUrl idna (requestBase host)).isSome)
    (hhost' : (newUrl idna (requestBase host')).isSome) :
    handleRequest idna servers resolveAgentIdentity (unit '/' :: rest) host =
      handleRequest idna servers resolveAgentIdentity (unit '/' :: rest) host' := by
  obtain ⟨base, hbase⟩ := Option.isSome_iff_exists.mp hhost
  obtain ⟨base', hbase'⟩ := Option.isSome_iff_exists.mp hhost'
  obtain ⟨hhttp, hscheme⟩ := request_base_http hbase
  obtain ⟨hhttp', hscheme'⟩ := request_base_http hbase'
  unfold handleRequest
  rw [new_url_rooted hbase, new_url_rooted hbase']
  rcases @rooted_target idna base base' (hscheme.trans hscheme'.symm) hhttp hhttp'
    (toScalars rest) with ⟨hnone, hnone'⟩ | ⟨url, url', hurl, hurl', hsame⟩
  · rw [hnone, hnone']
  · funext trace
    rw [hurl, hurl', Run.bind_ok (Run.lift_apply _ _), Run.bind_ok (Run.lift_apply _ _)]
    exact congrFun (handle_target hsame servers resolveAgentIdentity) trace

/-- A request with a `Host` header and one without. -/
theorem host_header_irrelevant_example :
    handleRequest Platform.ascii.idna [] (fun _ _ => .error ⟨text "refused"⟩)
        (unit '/' :: text "resolve?name=alice") (some (text "localhost:8787")) =
      handleRequest Platform.ascii.idna [] (fun _ _ => .error ⟨text "refused"⟩)
        (unit '/' :: text "resolve?name=alice") none :=
  host_header_irrelevant Platform.ascii.idna [] _ (text "resolve?name=alice") (by decide +kernel)
    (by decide +kernel)

end AgentResolver
