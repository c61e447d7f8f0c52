import AgentResolver.Web.Scalars
import AgentResolver.Web.Url

/-!
# URLs of the schemes http and https

The parser's states after the authority only fill in the path, the query and the fragment, so a
URL takes its scheme from the text it was parsed from, or from the base. `parse_rooted` says that a
reference that starts with a slash keeps the scheme of an http base, and `parse_local` that it can
only fail when a second slash names a new authority.
-/

namespace Web

open JavaScript

def httpSchemes : List ScalarString := ["http".toList, "https".toList]

/-- The components that the parser sets after the authority. -/
def Url.withTail (url : Url) (path : UrlPath) (query fragment : Option ScalarString) : Url :=
  { url with path := path, query := query, fragment := fragment }

/-- What the parser returns for the schemes http and https. -/
structure Url.IsHttp (url : Url) : Prop where
  scheme : url.scheme ∈ httpSchemes
  host : url.host.isSome
  path : ∃ segments, url.path = .segments segments

variable {idna : Idna}

/-! ## After the authority -/

theorem parse_query_tail (url : Url) (input : ScalarString) :
    ∃ query fragment, parseQuery url input = url.withTail url.path query fragment := by
  unfold parseQuery
  cases input.dropWhile (· != '#') with
  | nil => exact ⟨_, _, rfl⟩
  | cons c fragment => exact ⟨_, _, rfl⟩

theorem parse_after_path_tail (url : Url) (input : ScalarString) :
    ∃ query fragment, parseAfterPath url input = url.withTail url.path query fragment := by
  cases input with
  | nil => exact ⟨url.query, url.fragment, rfl⟩
  | cons c rest =>
      rw [parseAfterPath]
      by_cases hc : c = '?'
      · rw [if_pos hc]
        exact parse_query_tail url rest
      · rw [if_neg hc]
        exact ⟨_, _, rfl⟩

/-- The path state sets the path to a list of segments. -/
theorem parse_path_tail (url : Url) (path : List ScalarString) (input : ScalarString) :
    ∃ segments query fragment,
      parsePath url path input = url.withTail (.segments segments) query fragment := by
  unfold parsePath
  obtain ⟨query, fragment, htail⟩ := parse_after_path_tail
    { url with path := .segments (walkPath url.scheme path
      ((input.takeWhile fun c => c != '?' && c != '#').splitOnP (isSlash url.isSpecial))) }
    (input.dropWhile fun c => c != '?' && c != '#')
  exact ⟨_, query, fragment, htail⟩

/-- So does the path start state of a special URL. -/
theorem parse_path_start_tail {url : Url} (hspecial : url.isSpecial) (input : ScalarString) :
    ∃ segments query fragment,
      parsePathStart url input = url.withTail (.segments segments) query fragment := by
  unfold parsePathStart
  cases input with
  | nil =>
      simp only [hspecial, if_true]
      exact parse_path_tail url [] []
  | cons c rest =>
      simp only [hspecial, Bool.not_true, Bool.false_and, Bool.false_eq_true, if_false]
      split
      · exact parse_path_tail url [] rest
      · exact parse_path_tail url [] (c :: rest)

theorem http_is_special {scheme : ScalarString} (h : scheme ∈ httpSchemes) :
    isSpecialScheme scheme :=
  (by decide : ∀ scheme ∈ httpSchemes, isSpecialScheme scheme) scheme h

theorem http_ne_file {scheme : ScalarString} (h : scheme ∈ httpSchemes) :
    scheme ≠ "file".toList :=
  (by decide : ∀ scheme ∈ httpSchemes, scheme ≠ "file".toList) scheme h

theorem Url.IsHttp.isSpecial {url : Url} (h : url.IsHttp) : url.isSpecial :=
  http_is_special h.scheme

/-- Filling in the components after the authority keeps an http URL one. -/
theorem Url.IsHttp.withTail {url : Url} (h : url.IsHttp) (segments : List ScalarString)
    (query fragment : Option ScalarString) :
    (url.withTail (.segments segments) query fragment).IsHttp :=
  ⟨h.scheme, h.host, segments, rfl⟩

/-! ## Authority -/

/-- The authority state keeps the scheme and sets the host. -/
theorem parse_authority_some {url result : Url} {input : ScalarString}
    (h : parseAuthority idna url input = some result) :
    ∃ username password host port rest, result = parsePathStart
      { url with username := username, password := password, host := some host, port := port }
      rest := by
  unfold parseAuthority at h
  dsimp only at h
  split at h
  · cases h
  · split at h
    · cases h
    · obtain ⟨host, -, h⟩ := Option.bind_eq_some_iff.mp h
      obtain ⟨port, -, h⟩ := Option.bind_eq_some_iff.mp h
      exact ⟨_, _, host, port, _, (Option.some.inj h).symm⟩

/-- The authority state on an http scheme. -/
theorem parse_authority_http {scheme input : ScalarString} {url : Url}
    (hscheme : scheme ∈ httpSchemes)
    (h : parseAuthority idna (.ofScheme scheme) input = some url) :
    url.IsHttp ∧ url.scheme = scheme := by
  obtain ⟨username, password, host, port, rest, rfl⟩ := parse_authority_some h
  have hhttp : Url.IsHttp { Url.ofScheme scheme with
      username := username, password := password, host := some host, port := port } :=
    ⟨hscheme, rfl, [], rfl⟩
  obtain ⟨segments, query, fragment, htail⟩ := parse_path_start_tail hhttp.isSpecial rest
  rw [htail]
  exact ⟨hhttp.withTail segments query fragment, rfl⟩

/-! ## Stripping and schemes -/

/-- What is left at the end of an input whose start is kept. -/
def stripTail (input : ScalarString) : ScalarString :=
  (input.rdropWhile fun c => isC0Control c || c == ' ').filter
    fun c => !(c == '\t' || c == '\n' || c == '\r')

/-- A list whose elements are kept stops the dropping from the end. -/
theorem rdrop_while_append {α : Type} {p : α → Bool} {start : List α}
    (h : ∀ c ∈ start, p c = false) (rest : List α) :
    (start ++ rest).rdropWhile p = start ++ rest.rdropWhile p := by
  induction rest using List.reverseRecOn with
  | nil =>
      rw [List.rdropWhile_nil, List.append_nil, List.rdropWhile_eq_self_iff]
      intro hl
      simp [h _ (List.getLast_mem hl)]
  | append_singleton rest c ih =>
      rw [← List.append_assoc]
      by_cases hc : p c
      · rw [List.rdropWhile_concat_pos _ _ _ hc, List.rdropWhile_concat_pos _ _ _ hc, ih]
      · rw [List.rdropWhile_concat_neg _ _ _ hc, List.rdropWhile_concat_neg _ _ _ hc,
          List.append_assoc]

/-- Visible text has no tabs and newlines. -/
theorem filter_visible {s : ScalarString} (h : ∀ c ∈ s, isC0Control c = false ∧ c ≠ ' ') :
    s.filter (fun c => !(c == '\t' || c == '\n' || c == '\r')) = s := by
  rw [List.filter_eq_self]
  intro c hc
  have hcontrol := (h c hc).1
  simp only [Bool.not_eq_true', Bool.or_eq_false_iff, beq_eq_false_iff_ne]
  refine ⟨⟨?_, ?_⟩, ?_⟩ <;>
    · rintro rfl
      cases hcontrol

/-- Visible text is kept in front of what is stripped. -/
theorem strip_tail_append {start : ScalarString} (h : ∀ c ∈ start, isC0Control c = false ∧ c ≠ ' ')
    (rest : ScalarString) : stripTail (start ++ rest) = start ++ stripTail rest := by
  have hkept : ∀ c ∈ start, (isC0Control c || c == ' ') = false := by
    intro c hc
    simp [h c hc]
  rw [stripTail, rdrop_while_append hkept, List.filter_append, filter_visible h]
  rfl

theorem strip_tail_visible {s : ScalarString} (h : ∀ c ∈ s, isC0Control c = false ∧ c ≠ ' ') :
    stripTail s = s := by
  have hstrip := strip_tail_append h []
  rwa [List.append_nil, show stripTail [] = [] from rfl, List.append_nil] at hstrip

/-- A visible start of the input is kept. -/
theorem strip_input_append {start : ScalarString} (hne : start ≠ [])
    (h : ∀ c ∈ start, isC0Control c = false ∧ c ≠ ' ') (rest : ScalarString) :
    stripInput (start ++ rest) = start ++ stripTail rest := by
  have hdrop : (start ++ rest).dropWhile (fun c => isC0Control c || c == ' ') =
      start ++ rest := by
    cases start with
    | nil => exact absurd rfl hne
    | cons c start => exact List.dropWhile_cons_of_neg (by simp [h c])
  unfold stripInput
  dsimp only
  rw [hdrop]
  exact strip_tail_append h rest

/-- The scheme of a text that starts with http or https and a colon. -/
theorem split_scheme_http {scheme : ScalarString} (h : scheme ∈ httpSchemes)
    (rest : ScalarString) : splitScheme (scheme ++ ':' :: rest) = some (scheme, rest) := by
  simp only [httpSchemes, List.mem_cons, List.not_mem_nil, or_false] at h
  rcases h with rfl | rfl
  · rfl
  · rfl

/-- A text that starts with http or https and a colon names an authority. -/
theorem parse_http_text {scheme : ScalarString} (h : scheme ∈ httpSchemes)
    (rest : ScalarString) :
    parseUrl idna none (scheme ++ ':' :: rest) =
      parseAuthority idna (.ofScheme scheme) ((stripTail rest).dropWhile (isSlash true)) := by
  have hvisible : ∀ c ∈ scheme ++ [':'], isC0Control c = false ∧ c ≠ ' ' :=
    (by decide : ∀ scheme ∈ httpSchemes, ∀ c ∈ scheme ++ [':'], isC0Control c = false ∧ c ≠ ' ')
      scheme h
  unfold parseUrl
  rw [List.append_cons, strip_input_append (by simp) hvisible, ← List.append_cons]
  simp only [split_scheme_http h, parseAfterScheme, http_ne_file h, http_is_special h, if_false,
    if_true, Option.filter_none]

/-- What such a text is parsed to. -/
theorem parse_http_text_some {scheme rest : ScalarString} {url : Url}
    (hscheme : scheme ∈ httpSchemes)
    (h : parseUrl idna none (scheme ++ ':' :: rest) = some url) :
    url.IsHttp ∧ url.scheme = scheme := by
  rw [parse_http_text hscheme] at h
  exact parse_authority_http hscheme h

/-! ## References -/

/-- A reference that starts with a slash is read by the relative slash state. -/
theorem parse_rooted {base : Url} (hbase : base.IsHttp) (rest : ScalarString) :
    parseUrl idna (some base) ('/' :: rest) = parseRelativeSlash idna base (stripTail rest) := by
  obtain ⟨segments, hpath⟩ := hbase.path
  have hstrip : stripInput ('/' :: rest) = '/' :: stripTail rest :=
    @strip_input_append ['/'] (by simp) (by decide) rest
  have hscheme : splitScheme ('/' :: stripTail rest) = none := rfl
  unfold parseUrl
  rw [hstrip]
  simp only [hscheme, parseNoScheme, hpath, http_ne_file hbase.scheme, if_false, parseRelative,
    isSlash, beq_self_eq_true, Bool.true_or, if_true]

/-- A reference that starts with a slash gives an http URL of the scheme of its base. -/
theorem parse_rooted_some {base url : Url} {rest : ScalarString} (hbase : base.IsHttp)
    (h : parseUrl idna (some base) ('/' :: rest) = some url) :
    url.IsHttp ∧ url.scheme = base.scheme := by
  have hkept (input : ScalarString) : (parsePath base.withoutTail [] input).IsHttp ∧
      (parsePath base.withoutTail [] input).scheme = base.scheme := by
    obtain ⟨segments, query, fragment, htail⟩ := parse_path_tail base.withoutTail [] input
    rw [htail]
    exact ⟨hbase.withTail segments query fragment, rfl⟩
  rw [parse_rooted hbase] at h
  unfold parseRelativeSlash at h
  split at h
  · cases h
    exact hkept []
  · split at h
    · exact parse_authority_http hbase.scheme h
    · split at h
      · exact parse_authority_http hbase.scheme h
      · cases h
        exact hkept _

/-- Without a second slash it is a path of the base's host, which cannot fail. -/
theorem parse_local {base : Url} {rest : ScalarString} (hbase : base.IsHttp)
    (hslash : (stripTail rest).head?.any (isSlash true) = false) :
    parseUrl idna (some base) ('/' :: rest) =
      some (parsePath base.withoutTail [] (stripTail rest)) := by
  rw [parse_rooted hbase]
  unfold parseRelativeSlash
  cases hrest : stripTail rest with
  | nil => rfl
  | cons c tail =>
      rw [hrest] at hslash
      have hc : isSlash true c = false := by simpa using hslash
      have hne : c ≠ '/' := by
        rintro rfl
        cases hc
      simp [hc, hne]

/-! ## Plain paths -/

/-- A segment that the path state keeps as it is. -/
def isPlainSegment (segment : ScalarString) : Bool :=
  segment.all (fun c => !inPathSet c) && !isSingleDot segment && !isDoubleDot segment

theorem walk_path_plain {scheme : ScalarString} (hscheme : scheme ≠ "file".toList)
    {path segments : List ScalarString} (hplain : ∀ segment ∈ segments, isPlainSegment segment) :
    walkPath scheme path segments = path ++ segments := by
  have hadd (path : List ScalarString) (segment : ScalarString) (last : Bool)
      (h : isPlainSegment segment) :
      addSegment scheme path (percentEncode inPathSet segment) last = path ++ [segment] := by
    simp only [isPlainSegment, Bool.and_eq_true, List.all_eq_true, Bool.not_eq_true'] at h
    obtain ⟨⟨hkept, hsingle⟩, hdouble⟩ := h
    rw [percent_encode_eq_self hkept, addSegment, if_neg (by simp [hdouble]),
      if_neg (by simp [hsingle]), if_neg]
    simp only [Bool.and_eq_true, decide_eq_true_eq]
    rintro ⟨⟨hfile, -⟩, -⟩
    exact hscheme hfile
  induction segments generalizing path with
  | nil => simp [walkPath]
  | cons segment rest ih =>
      cases rest with
      | nil => exact hadd path segment true (hplain segment (by simp))
      | cons next rest =>
          rw [walkPath, hadd path segment false (hplain segment (by simp)),
            ih fun segment h => hplain segment (List.mem_cons_of_mem _ h), List.append_assoc]
          · rfl
          · simp

/-- A path of plain segments is kept. -/
theorem parse_path_plain {url : Url} (hscheme : url.scheme ∈ httpSchemes) {input : ScalarString}
    (hinput : ∀ c ∈ input, inPathSet c = false)
    (hplain : ∀ segment ∈ input.splitOnP (isSlash true), isPlainSegment segment) :
    parsePath url [] input =
      url.withTail (.segments (input.splitOnP (isSlash true))) url.query url.fragment := by
  have hspecial : url.isSpecial = true := http_is_special hscheme
  have hmark : ∀ c ∈ input, (c != '?' && c != '#') = true := by
    intro c hc
    have hkept := hinput c hc
    rw [Bool.and_eq_true, bne_iff_ne, bne_iff_ne]
    constructor <;>
      · rintro rfl
        cases hkept
  unfold parsePath
  dsimp only
  rw [List.takeWhile_eq_self_iff.mpr hmark, List.dropWhile_eq_nil_iff.mpr hmark, hspecial,
    walk_path_plain (http_ne_file hscheme) hplain, List.nil_append]
  rfl

/-! ## Absolute URLs -/

theorem parse_path_scheme (url : Url) (path : List ScalarString) (input : ScalarString) :
    (parsePath url path input).scheme = url.scheme := by
  obtain ⟨segments, query, fragment, htail⟩ := parse_path_tail url path input
  rw [htail]
  rfl

theorem parse_after_path_scheme (url : Url) (input : ScalarString) :
    (parseAfterPath url input).scheme = url.scheme := by
  obtain ⟨query, fragment, htail⟩ := parse_after_path_tail url input
  rw [htail]
  rfl

theorem parse_path_start_scheme (url : Url) (input : ScalarString) :
    (parsePathStart url input).scheme = url.scheme := by
  unfold parsePathStart
  cases input with
  | nil =>
      dsimp only
      split
      · exact parse_path_scheme _ _ _
      · rfl
  | cons c rest =>
      dsimp only
      split
      · exact parse_path_scheme _ _ _
      · split
        · exact parse_after_path_scheme _ _
        · exact parse_path_scheme _ _ _

theorem parse_authority_scheme {url result : Url} {input : ScalarString}
    (h : parseAuthority idna url input = some result) : result.scheme = url.scheme := by
  obtain ⟨username, password, host, port, rest, rfl⟩ := parse_authority_some h
  exact parse_path_start_scheme _ _

/-- The file states without a base. -/
theorem parse_file_scheme {url : Url} {input : ScalarString}
    (h : parseFile idna none input = some url) : url.scheme = "file".toList := by
  have hhost {input : ScalarString} (h : parseFileHost idna emptyFile input = some url) :
      url.scheme = "file".toList := by
    unfold parseFileHost at h
    dsimp only at h
    split at h
    · cases h
      exact parse_path_scheme _ _ _
    · split at h
      · cases h
        exact parse_path_start_scheme _ _
      · obtain ⟨host, -, h⟩ := Option.bind_eq_some_iff.mp h
        cases h
        exact parse_path_start_scheme _ _
  unfold parseFile at h
  simp only [Option.filter_none] at h
  split at h
  · unfold parseFileSlash at h
    split at h
    · exact hhost h
    · cases h
      exact parse_path_scheme _ _ _
  · cases h
    exact parse_path_scheme _ _ _

/-- An absolute URL whose scheme turns out to be http or https was parsed as one. -/
theorem parse_absolute_http {input : ScalarString} {url : Url}
    (h : parseUrl idna none input = some url) (hscheme : url.scheme ∈ httpSchemes) :
    url.IsHttp := by
  unfold parseUrl at h
  dsimp only at h
  cases hsplit : splitScheme (stripInput input) with
  | none =>
      rw [hsplit] at h
      cases h
  | some split =>
      obtain ⟨scheme, rest⟩ := split
      rw [hsplit] at h
      dsimp only [parseAfterScheme] at h
      split at h
      · exact absurd (parse_file_scheme h) (http_ne_file hscheme)
      · split at h
        · simp only [Option.filter_none] at h
          have hkept : url.scheme = scheme := parse_authority_scheme h
          rw [hkept] at hscheme
          exact (parse_authority_http hscheme h).1
        · -- The scheme is not special, so it is not http or https.
          rename_i hspecial
          suffices url.scheme = scheme from absurd (http_is_special (this ▸ hscheme)) hspecial
          split at h
          · exact parse_authority_scheme h
          · cases h
            exact parse_path_scheme _ _ _
          · cases h
            exact parse_after_path_scheme _ _

/-! ## Serialization -/

theorem serialize_authority_http {url : Url} {host : Host} (hhost : url.host = some host) :
    ∃ login, url.serializeAuthority =
      "//".toList ++ login ++ serializeHost host ++ serializePort url.port := by
  unfold Url.serializeAuthority
  rw [hhost]
  exact ⟨_, rfl⟩

/-- The text of an http URL starts with its scheme and two slashes. -/
theorem serialize_http {url : Url} (h : url.IsHttp) :
    ∃ rest, url.serialize = url.scheme ++ "://".toList ++ rest := by
  obtain ⟨host, hhost⟩ := Option.isSome_iff_exists.mp h.host
  obtain ⟨login, hauthority⟩ := serialize_authority_http hhost
  refine ⟨login ++ serializeHost host ++ serializePort url.port ++ serializePath url.path ++
    (url.query.elim [] fun query => '?' :: query) ++
    (url.fragment.elim [] fun fragment => '#' :: fragment), ?_⟩
  rw [Url.serialize, hauthority]
  simp only [List.append_assoc, List.cons_append]
  rfl

/-- `url.href` of an http URL starts with `http://` or `https://`. -/
theorem href_http {url : Url} (h : url.IsHttp) :
    startsWith url.href (text "http://") ∨ startsWith url.href (text "https://") := by
  obtain ⟨rest, hserialize⟩ := serialize_http h
  have hscheme := h.scheme
  simp only [httpSchemes, List.mem_cons, List.not_mem_nil, or_false] at hscheme
  unfold Url.href
  rcases hscheme with hscheme | hscheme
  · left
    rw [hserialize, hscheme, of_scalars_append]
    rfl
  · right
    rw [hserialize, hscheme, of_scalars_append]
    rfl

/-- The origin of an http URL is its scheme, a colon and more. -/
theorem origin_http {url : Url} (h : url.IsHttp) :
    ∃ rest, url.origin = ofScalars (url.scheme ++ ':' :: rest) := by
  have hguard : (url.isSpecial && url.scheme != "file".toList) = true := by
    rw [h.isSpecial, Bool.true_and, bne_iff_ne]
    exact http_ne_file h.scheme
  rw [Url.origin, if_pos hguard]
  exact ⟨"//".toList ++ url.host.elim [] serializeHost ++ serializePort url.port, by simp⟩

/-! ## Origins of references -/

/-- The origin of an http URL is its scheme and its host with the port. -/
theorem origin_host_port {url : Url} (h : url.IsHttp) :
    url.origin = ofScalars (url.scheme ++ "://".toList) ++ url.hostPort := by
  obtain ⟨host, hhost⟩ := Option.isSome_iff_exists.mp h.host
  have hguard : (url.isSpecial && url.scheme != "file".toList) = true := by
    rw [h.isSpecial, Bool.true_and, bne_iff_ne]
    exact http_ne_file h.scheme
  rw [Url.origin, if_pos hguard, Url.hostPort, hhost]
  simp only [Option.elim_some, List.append_assoc, of_scalars_append]

/-- Two http URLs of one scheme have the same origin when they have the same host and port. -/
theorem origin_eq_iff {url base : Url} (h : url.IsHttp) (hbase : base.IsHttp)
    (hscheme : url.scheme = base.scheme) :
    url.origin = base.origin ↔ url.hostPort = base.hostPort := by
  rw [origin_host_port h, origin_host_port hbase, hscheme, List.append_right_inj]

/-- The host and the port, as a URL writes them, that an authority at the start of the input
names. -/
def namedHostPort (idna : Idna) (scheme input : ScalarString) : Option JSString :=
  let inAuthority (c : Char) : Bool :=
    !(isSlash (isSpecialScheme scheme) c || c == '?' || c == '#')
  let (hostText, portText) := splitPort false (splitCredentials (input.takeWhile inAuthority)).2
  do
    let host ← parseHost idna (isSpecialScheme scheme) hostText
    let port ← parsePort scheme (portText.getD [])
    return ofScalars (serializeHost host ++ serializePort port)

theorem parse_authority_host_port {scheme input : ScalarString} {url : Url}
    (hscheme : scheme ∈ httpSchemes)
    (h : parseAuthority idna (.ofScheme scheme) input = some url) :
    namedHostPort idna scheme input = some url.hostPort := by
  unfold parseAuthority at h
  dsimp only at h
  split at h
  · cases h
  · split at h
    · cases h
    · obtain ⟨host, hhost, h⟩ := Option.bind_eq_some_iff.mp h
      obtain ⟨port, hport, h⟩ := Option.bind_eq_some_iff.mp h
      obtain rfl := Option.some.inj h
      -- What follows the authority changes neither the host nor the port.
      obtain ⟨segments, query, fragment, htail⟩ :=
        @parse_path_start_tail { Url.ofScheme scheme with
          username := _, password := _, host := some host, port := port }
          (http_is_special hscheme) _
      rw [htail]
      exact Option.bind_eq_some_iff.mpr
        ⟨host, hhost, Option.bind_eq_some_iff.mpr ⟨port, hport, rfl⟩⟩

/-- What follows the first slash of a reference names no authority, or one with the base's host and
port. -/
def KeepsHostPort (idna : Idna) (base : Url) (tail : ScalarString) : Prop :=
  tail.head?.any (isSlash true) = false ∨
    namedHostPort idna base.scheme (tail.dropWhile (isSlash true)) = some base.hostPort

/-- A second slash starts an authority. -/
theorem parse_network {base : Url} {rest : ScalarString} (hbase : base.IsHttp)
    (hslash : (stripTail rest).head?.any (isSlash true) = true) :
    parseUrl idna (some base) ('/' :: rest) =
      parseAuthority idna (.ofScheme base.scheme) ((stripTail rest).dropWhile (isSlash true)) := by
  rw [parse_rooted hbase]
  unfold parseRelativeSlash
  cases hrest : stripTail rest with
  | nil =>
      rw [hrest] at hslash
      cases hslash
  | cons c tail =>
      rw [hrest] at hslash
      have hc : isSlash true c = true := by simpa using hslash
      simp [hbase.isSpecial, hc]

/-- A reference that starts with a slash stays on the origin of its base exactly when it keeps the
host and the port. -/
theorem rooted_origin_iff {base url : Url} {rest : ScalarString} (hbase : base.IsHttp)
    (h : parseUrl idna (some base) ('/' :: rest) = some url) :
    url.origin = base.origin ↔ KeepsHostPort idna base (stripTail rest) := by
  obtain ⟨hhttp, hscheme⟩ := parse_rooted_some hbase h
  rw [origin_eq_iff hhttp hbase hscheme, KeepsHostPort]
  cases hslash : (stripTail rest).head?.any (isSlash true) with
  | false =>
      rw [parse_local hbase hslash] at h
      obtain ⟨segments, query, fragment, htail⟩ :=
        parse_path_tail base.withoutTail [] (stripTail rest)
      rw [htail] at h
      obtain rfl := Option.some.inj h
      exact iff_of_true rfl (Or.inl rfl)
  | true =>
      rw [parse_network hbase hslash] at h
      rw [parse_authority_host_port hbase.scheme h, Option.some_inj]
      simp only [Bool.true_eq_false, false_or]

end Web
