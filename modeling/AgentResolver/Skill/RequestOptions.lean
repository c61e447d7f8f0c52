import AgentResolver.Skill.Pinning
import AgentResolver.Web.HttpAgain

/-!
# The options of a SKILL.md request

The first half of `requestSkill` of `src/skill-fetch.js`: what Node's client is asked to send, and
where. The URL of a candidate was parsed once when it was planned and is parsed here again; both
times it is the same URL (`planned_candidate_again`), and a server that puts the request's parts
together gets it without its credentials, its fragment and an empty query
(`request_target_again`).
-/

namespace AgentResolver

open JavaScript Web
open Interaction Sequence

/-- The `headers` of the options. -/
structure RequestHeaders where
  host : JSString
  accept : JSString
  deriving DecidableEq

/-- The options for the client, and which client it is. -/
structure RequestOptions where
  secure : Bool
  protocol : JSString
  hostname : JSString
  port : Nat
  path : JSString
  method : JSString
  headers : RequestHeaders
  timeout : Nat
  servername : JSString
  deriving DecidableEq

/-- The options for a parsed URL. The source hands over the port of the URL as a text of digits:
here it is the number they stand for. -/
def clientOptions (url : Url) (options : FetchOptions) : RequestOptions :=
  let plain : Bool := url.protocol = text "http:"
  let connectHost := options.address.getD url.hostname
  { secure := !plain
    protocol := url.protocol
    hostname := connectHost
    port := url.port.getD (if plain then 80 else 443)
    path := url.pathname ++ url.search
    method := text "GET"
    headers :=
      { host := url.hostPort
        accept := text "text/markdown,text/plain,*/*" }
    timeout := options.timeoutMs
    servername := url.hostname }

/-- What `requestSkill` hands to the client. -/
def requestOptions (idna : Idna) (urlString : JSString) (options : FetchOptions) :
    Except JSError RequestOptions :=
  match newUrl idna urlString with
  | none => .error ⟨text "Invalid URL"⟩
  | some url => .ok (clientOptions url options)

variable {idna : Idna} {url base : Url}

/-! ## The URL of a candidate -/

/-- The URL of an http or https candidate, which `new URL` reads again from its text. -/
structure IsRequestable (idna : Idna) (url : Url) : Prop where
  parsed : url.IsParsed idna
  exact : url.IsExact
  scheme : url.scheme ∈ httpSchemes

theorem IsRequestable.isHttp (h : IsRequestable idna url) : url.IsHttp := by
  obtain ⟨segment, rest, hpath, -⟩ := h.exact.path
  exact ⟨h.scheme, h.parsed.front.special (http_is_special h.scheme), _, hpath⟩

theorem IsRequestable.again (h : IsRequestable idna url) :
    newUrl idna url.href = some url := by
  rw [newUrl, Url.href, to_scalars_of_scalars]
  exact http_url_again h.parsed h.exact h.scheme

/-- An http or https URL that `new URL` returns. -/
theorem new_url_requestable (hidna : idna.IsStable) {input : JSString}
    (h : newUrl idna input = some url) (hscheme : url.scheme ∈ httpSchemes) :
    IsRequestable idna url :=
  ⟨new_url_parsed hidna h, parse_absolute_exact h hscheme, hscheme⟩

/-- A rooted reference resolved against an http origin. -/
theorem rooted_requestable (hidna : idna.IsStable) {origin : JSString} {rest : JSString}
    (horigin : newUrl idna origin = some base) (hbase : base.IsHttp)
    (h : newUrlWithBase idna (unit '/' :: rest) origin = some url) :
    IsRequestable idna url := by
  have hparsed := new_url_with_base_parsed hidna h
  rw [new_url_rooted horigin] at h
  have hexact := parse_rooted_exact hbase (parse_absolute_exact horigin hbase.scheme) h
  exact ⟨hparsed, hexact, (parse_rooted_some hbase h).1.scheme⟩

/-- Every URL of a plan is the text of an http or https URL, and is parsed to this URL again. -/
theorem planned_candidate_again (hidna : idna.IsStable) {scheme name : JSString}
    {metadata : Properties JSString} {plan : SkillCandidatePlan} (hscheme : IsDefaultScheme scheme)
    (hplan : buildSkillCandidatePlan idna name metadata scheme = .ok plan) {candidate : Candidate}
    (hmem : candidate ∈ plan.candidates) :
    ∃ url, IsRequestable idna url ∧ candidate.url = url.href := by
  obtain ⟨hcontents, hplannable⟩ := build_plan_ok hscheme hplan
  obtain ⟨base, horigin⟩ := Option.isSome_iff_exists.mp hplannable.validOrigin
  have hbase := expected_origin_http hscheme horigin
  rcases planned_url hcontents hmem with ⟨url, habsolute, hurl⟩ | ⟨path, url, hpath, hparse, hurl⟩
  · obtain ⟨hfound, hhttp⟩ := Option.filter_eq_some_iff.mp habsolute
    obtain ⟨skill, -, hparse⟩ := Option.bind_eq_some_iff.mp hfound
    exact ⟨url, new_url_requestable hidna hparse (is_http_url_iff.mp hhttp), hurl⟩
  · obtain ⟨rest, rfl⟩ : ∃ rest, path = unit '/' :: rest := by
      rcases hpath with hreference | hdefault
      · exact relative_reference_rooted hreference
      · exact relative_reference_rooted (@default_is_reference idna path hdefault).1
    exact ⟨url, rooted_requestable hidna horigin hbase hparse, hurl⟩

/-! ## The target of a request -/

/-- The URL that a server puts together from the request: the scheme of the connection, the `host`
header and the path. -/
def RequestOptions.target (request : RequestOptions) : JSString :=
  request.protocol ++ text "//" ++ request.headers.host ++ request.path

/-- The URL without what is not sent. -/
def sentUrl (url : Url) : Url :=
  { url with
    username := []
    password := []
    query := url.query.filter fun query => !query.isEmpty
    fragment := none }

/-- The target of a request is the text of the URL without what is not sent. -/
theorem request_target (h : url.IsHttp) (options : FetchOptions) :
    (clientOptions url options).target = (sentUrl url).href := by
  obtain ⟨host, hhost⟩ := Option.isSome_iff_exists.mp h.host
  have hauthority : (sentUrl url).serializeAuthority =
      "//".toList ++ serializeHost host ++ serializePort url.port := by
    rw [Url.serializeAuthority, sentUrl, hhost]
    simp
  have hsearch : url.search =
      ofScalars ((sentUrl url).query.elim [] fun query => '?' :: query) := by
    rw [Url.search, sentUrl]
    cases url.query with
    | none => rfl
    | some query =>
        cases query with
        | nil => rfl
        | cons c rest => rfl
  show url.protocol ++ text "//" ++ url.hostPort ++ (url.pathname ++ url.search) = _
  rw [hsearch, Url.href, Url.serialize, hauthority, Url.protocol, Url.hostPort, hhost,
    Url.pathname]
  show _ = ofScalars (url.scheme ++ ':' :: ("//".toList ++ serializeHost host ++
    serializePort url.port) ++ serializePath url.path ++
      ((sentUrl url).query.elim [] fun query => '?' :: query) ++ [])
  rw [show text "//" = ofScalars "//".toList from rfl]
  simp only [← of_scalars_append, Option.elim_some]
  simp

/-- The client and the port are those of the URL's scheme. -/
theorem client_of_scheme (h : url.scheme ∈ httpSchemes) (options : FetchOptions) :
    ((clientOptions url options).secure = true ↔ url.scheme = "https".toList) ∧
      some (clientOptions url options).port = url.port.or (defaultPort url.scheme) := by
  have hall : ∀ scheme ∈ httpSchemes,
      ((!decide (ofScalars (scheme ++ [':']) = text "http:")) = true ↔ scheme = "https".toList) ∧
        some (if decide (ofScalars (scheme ++ [':']) = text "http:") then 80 else 443) =
          defaultPort scheme := by
    decide
  obtain ⟨hsecure, hport⟩ := hall url.scheme h
  refine ⟨hsecure, ?_⟩
  rw [← hport, clientOptions, Url.protocol]
  cases url.port with
  | none => rfl
  | some port => rfl

/-- What is sent of a candidate's URL is again a URL that can be requested. -/
theorem IsRequestable.sent (h : IsRequestable idna url) :
    IsRequestable idna (sentUrl url) where
  parsed :=
    { front :=
        { scheme := h.parsed.front.scheme
          special := h.parsed.front.special
          host := h.parsed.front.host
          login := fun _ hc => absurd hc List.not_mem_nil
          port := h.parsed.front.port
          bare := fun hbare => ⟨rfl, rfl, (h.parsed.front.bare hbare).2.2⟩ }
      path := h.parsed.path }
  exact :=
    { path := h.exact.path
      query := fun query hquery => h.exact.query query (Option.filter_eq_some_iff.mp hquery).1
      fragment := fun fragment hfragment => absurd hfragment.symm (Option.some_ne_none fragment)
      port := h.exact.port }
  scheme := h.scheme

/-- A server that parses the target of a request gets what was sent of the URL. -/
theorem request_target_again (h : IsRequestable idna url) (options : FetchOptions) :
    newUrl idna (clientOptions url options).target = some (sentUrl url) := by
  rw [request_target h.isHttp]
  exact h.sent.again

end AgentResolver
