import AgentResolver.Server
import AgentResolver.Web.Forms

/-!
# Requests with encoded parameters

What the service makes of a request whose parameters a client encoded with `encodeURIComponent`: the
parameters arrive as they were written (`request_parameters_round_trip`), whatever characters they
contain, and the resolver is asked for the name that they give (`encoded_request_run`).
-/

namespace AgentResolver

open JavaScript Web
open Interaction (Run.bind_ok Run.lift_apply)

/-- The request target of a client: `/resolve?` and the encoded parameters. -/
def encodedTarget (fields : List (ScalarString × ScalarString)) : JSString :=
  ofScalars ("/resolve?".toList ++ formText fields)

/-- The first value of a parameter is one of those that count as set. -/
def isSet (fields : List (ScalarString × ScalarString)) (name : String) : Bool :=
  fields.lookup name.toList ∈ [some "1".toList, some "true".toList, some "yes".toList]

/-- The options that the parameters ask for. -/
def requestedOptions (servers : List JSString) (fields : List (ScalarString × ScalarString)) :
    ServerOptions where
  dns := if servers.isEmpty then none else some servers
  forceSkillDiscovery :=
    isSet fields "forceSkillDiscovery" || isSet fields "force-skill-discovery"

variable {idna : Idna} {host : Option JSString} {base url : Url}
  {fields : List (ScalarString × ScalarString)}

/-- What stands in front of a request target is an http URL. -/
theorem request_base_http (h : newUrl idna (requestBase host) = some base) :
    base.IsHttp ∧ base.scheme = "http".toList := by
  have htext : toScalars (requestBase host) =
      "http".toList ++ ':' :: ("//".toList ++ toScalars (host.getD (text "127.0.0.1"))) :=
    to_scalars_text_append (by decide) _
  rw [newUrl, htext] at h
  exact parse_http_text_some (by decide) h

/-- The URL of an encoded request. -/
theorem encoded_target_url (hbase : newUrl idna (requestBase host) = some base)
    (fields : List (ScalarString × ScalarString)) :
    newUrlWithBase idna (encodedTarget fields) (requestBase host) =
      some (base.withTail (.segments ["resolve".toList])
        (some (percentEncode inSpecialQuerySet (formText fields))) none) := by
  have hhttp := (request_base_http hbase).1
  have hvisible : ∀ c ∈ "resolve?".toList ++ formText fields,
      isC0Control c = false ∧ c ≠ ' ' := by
    intro c hc
    rcases List.mem_append.mp hc with hc | hc
    · exact (by decide : ∀ c ∈ "resolve?".toList, isC0Control c = false ∧ c ≠ ' ') c hc
    · obtain ⟨hcontrol, hspace, -⟩ := form_text_chars fields c hc
      exact ⟨hcontrol, hspace⟩
  have htext : "/resolve?".toList ++ formText fields =
      '/' :: ("resolve".toList ++ '?' :: formText fields) := rfl
  have hstrip : stripTail ("resolve".toList ++ '?' :: formText fields) =
      "resolve".toList ++ '?' :: formText fields := strip_tail_visible hvisible
  have hlocal := @parse_local idna base ("resolve".toList ++ '?' :: formText fields) hhttp
    (by rw [hstrip]; rfl)
  have hpath := @parse_path_query base.withoutTail hhttp.scheme "resolve".toList (formText fields)
    (by decide) (by decide) fun hmem => (form_text_chars fields '#' hmem).2.2 rfl
  rw [newUrlWithBase, hbase, encodedTarget, to_scalars_of_scalars, htext]
  dsimp only
  rw [hlocal, hstrip, hpath]
  rfl

/-- Every parameter that a client encodes arrives as it was written: the target is a URL with the
path `/resolve`, and each of its parameters has the value that stands first under this name. -/
theorem request_parameters_round_trip (hbase : newUrl idna (requestBase host) = some base)
    (fields : List (ScalarString × ScalarString)) :
    ∃ url, newUrlWithBase idna (encodedTarget fields) (requestBase host) = some url ∧
      url.pathname = text "/resolve" ∧
      ∀ name, url.searchParam (ofScalars name) = (fields.lookup name).map ofScalars :=
  ⟨_, encoded_target_url hbase fields, rfl, fun name => search_param_form rfl name⟩

theorem request_parameters_round_trip_example :
    ∃ url, newUrlWithBase .ascii (encodedTarget [("name".toList, "é&=+%#".toList)])
        (requestBase (some (text "localhost:8787"))) = some url ∧
      url.searchParam (text "name") = some (ofScalars "é&=+%#".toList) := by
  obtain ⟨url, hurl, -, hparam⟩ := @request_parameters_round_trip .ascii
    (some (text "localhost:8787")) _ rfl [("name".toList, "é&=+%#".toList)]
  exact ⟨url, hurl, hparam "name".toList⟩

theorem boolean_param_form
    (h : url.query = some (percentEncode inSpecialQuerySet (formText fields))) {name : String}
    (hname : ∀ c ∈ name.toList, isAsciiChar c) :
    booleanParam url (text name) = isSet fields name := by
  have htext (s : String) (hs : ∀ c ∈ s.toList, isAsciiChar c) : text s = ofScalars s.toList :=
    (of_scalars_ascii hs).symm
  rw [booleanParam, htext name hname, search_param_form h, htext "1" (by decide),
    htext "true" (by decide), htext "yes" (by decide), isSet]
  cases fields.lookup name.toList with
  | none => rfl
  | some value =>
      simp only [Option.map_some, List.mem_cons, List.not_mem_nil, or_false, Option.some.injEq,
        of_scalars_injective.eq_iff]

/-- A request with an encoded name asks the resolver for exactly this name, with the flags that its
parameters set, and replies with the outcome. -/
theorem encoded_request_run (hbase : newUrl idna (requestBase host) = some base)
    (servers : List JSString) (resolveAgentIdentity : ResolveAgentIdentity)
    {name : ScalarString} (hname : fields.lookup "name".toList = some name) (hne : name ≠ [])
    (trace : List ServerEvent) :
    handleRequest idna servers resolveAgentIdentity (encodedTarget fields) host trace =
      (.ok (), trace ++ [.resolve (ofScalars name) (requestedOptions servers fields),
        .send (resolvedReply
          (resolveAgentIdentity (ofScalars name) (requestedOptions servers fields)))]) := by
  have hnonempty : ofScalars name ≠ [] := by
    intro hempty
    exact hne (of_scalars_injective (hempty.trans rfl))
  have hparam : (base.withTail (.segments ["resolve".toList])
      (some (percentEncode inSpecialQuerySet (formText fields))) none).searchParam (text "name") =
        some (ofScalars name) := by
    have htext : text "name" = ofScalars "name".toList :=
      (of_scalars_ascii (by decide)).symm
    rw [htext, search_param_form rfl, hname, Option.map_some]
  have hpath : (base.withTail (.segments ["resolve".toList])
      (some (percentEncode inSpecialQuerySet (formText fields))) none).pathname =
        text "/resolve" := rfl
  unfold handleRequest
  rw [encoded_target_url hbase fields]
  dsimp only
  rw [Run.bind_ok (Run.lift_apply _ _)]
  unfold handleUrl
  rw [if_neg (not_not_intro hpath), hparam, Option.filter_some, if_pos (by simpa using hnonempty)]
  dsimp only
  rw [boolean_param_form rfl (by decide), boolean_param_form rfl (by decide)]
  exact reply_resolved_run _ _ trace

end AgentResolver
