import AgentResolver.Web.Reparse

/-!
# HTTP URLs read again

The text of a parsed http or https URL is parsed to the very same URL: `http_url_again`. What the
states after the authority leave behind is read again without a change (`Url.IsExact`): the path has
a segment, no segment is a dot one or has a separator in it, and the query and the fragment are
encoded.
-/

namespace Web

open JavaScript

variable {idna : Idna} {url : Url} {input : ScalarString}

/-- Segments that the path state of a special URL keeps. -/
def ArePlain (list : List ScalarString) : Prop :=
  ∀ segment ∈ list, isPlainSegment segment ∧ ∀ c ∈ segment, isSlash true c = false

/-- The components after the host of an http URL, as its parser leaves them. -/
structure Url.IsExact (url : Url) : Prop where
  path : ∃ segment rest, url.path = .segments (segment :: rest) ∧ ArePlain (segment :: rest)
  query : ∀ query, url.query = some query → ∀ c ∈ query, inSpecialQuerySet c = false
  fragment : ∀ fragment, url.fragment = some fragment → ∀ c ∈ fragment, inFragmentSet c = false
  port : ∀ port, url.port = some port → defaultPort url.scheme ≠ some port

/-! ## What the parser leaves behind -/

theorem shorten_path_plain {scheme : ScalarString} {path : List ScalarString}
    (h : ArePlain path) : ArePlain (shortenPath scheme path) := by
  unfold shortenPath
  split
  · split
    · exact h
    · exact fun segment hsegment => absurd hsegment List.not_mem_nil
  · exact fun segment hsegment => h segment ((List.dropLast_sublist _).mem hsegment)

theorem snoc_plain {path : List ScalarString} {segment : ScalarString} (h : ArePlain path)
    (hsegment : isPlainSegment segment ∧ ∀ c ∈ segment, isSlash true c = false) :
    ArePlain (path ++ [segment]) := by
  intro other hother
  rcases List.mem_append.mp hother with hother | hother
  · exact h other hother
  · exact List.mem_singleton.mp hother ▸ hsegment

theorem empty_segment_plain :
    isPlainSegment [] ∧ ∀ c ∈ ([] : ScalarString), isSlash true c = false :=
  ⟨rfl, fun _ hc => absurd hc List.not_mem_nil⟩

/-- A segment that is encoded and has no separator is dropped, or kept as it is. -/
theorem add_segment_plain {scheme segment : ScalarString} (hscheme : scheme ≠ "file".toList)
    {path : List ScalarString} (h : ArePlain path) (hencoded : ∀ c ∈ segment, inPathSet c = false)
    (hslash : ∀ c ∈ segment, isSlash true c = false) (last : Bool) :
    ArePlain (addSegment scheme path segment last) ∧
      (last = true → addSegment scheme path segment last ≠ []) := by
  unfold addSegment
  by_cases hdouble : isDoubleDot segment
  · rw [if_pos hdouble]
    cases last with
    | true => exact ⟨snoc_plain (shorten_path_plain h) empty_segment_plain, fun _ => by simp⟩
    | false => exact ⟨shorten_path_plain h, fun hlast => by cases hlast⟩
  · rw [if_neg hdouble]
    by_cases hsingle : isSingleDot segment
    · rw [if_pos hsingle]
      cases last with
      | true => exact ⟨snoc_plain h empty_segment_plain, fun _ => by simp⟩
      | false => exact ⟨h, fun hlast => by cases hlast⟩
    · have hkept : isPlainSegment segment := by
        simp only [isPlainSegment, Bool.and_eq_true, List.all_eq_true, Bool.not_eq_true']
        exact ⟨⟨hencoded, by simpa using hsingle⟩, by simpa using hdouble⟩
      have hnofile : ¬ (scheme = "file".toList && path.isEmpty && isWindowsDriveLetter segment) =
          true := by
        intro hguard
        rw [Bool.and_eq_true, Bool.and_eq_true] at hguard
        exact hscheme (of_decide_eq_true hguard.1.1)
      rw [if_neg hsingle, if_neg hnofile]
      exact ⟨snoc_plain h ⟨hkept, hslash⟩, fun _ => by simp⟩

/-- The path state leaves plain segments, and at least one. -/
theorem walk_path_leaves_plain {scheme : ScalarString} (hscheme : scheme ≠ "file".toList)
    {path segments : List ScalarString} (h : ArePlain path) (hne : segments ≠ [])
    (hslash : ∀ segment ∈ segments, ∀ c ∈ segment, isSlash true c = false) :
    ArePlain (walkPath scheme path segments) ∧ walkPath scheme path segments ≠ [] := by
  have hencoded (segment : ScalarString) : ∀ c ∈ percentEncode inPathSet segment,
      inPathSet c = false := percent_encode_forall (fun c _ hkept => hkept) (by decide)
  have hapart (segment : ScalarString) (hsegment : ∀ c ∈ segment, isSlash true c = false) :
      ∀ c ∈ percentEncode inPathSet segment, isSlash true c = false :=
    percent_encode_forall (fun c hc _ => hsegment c hc) (by decide)
  induction segments generalizing path with
  | nil => exact absurd rfl hne
  | cons segment rest ih =>
      have hadd := @add_segment_plain scheme _ hscheme path h (hencoded segment)
        (hapart segment (hslash segment List.mem_cons_self))
      cases rest with
      | nil => exact ⟨(hadd true).1, (hadd true).2 rfl⟩
      | cons next rest =>
          exact ih (hadd false).1 (List.cons_ne_nil _ _) fun other hother =>
            hslash other (List.mem_cons_of_mem _ hother)

/-- Only the fragment is set. -/
theorem Url.IsExact.withFragment (h : url.IsExact) (input : ScalarString) :
    (parseFragment url input).IsExact where
  path := h.path
  query := h.query
  fragment fragment hfragment := by
    obtain rfl := Option.some.inj hfragment
    exact percent_encode_forall (fun c _ hkept => hkept) (by decide)
  port := h.port

theorem Url.IsExact.withQuery (h : url.IsExact) (hspecial : url.isSpecial = true)
    (input : ScalarString) : (parseQuery url input).IsExact := by
  have hquery : ({ url with query := some (percentEncode inSpecialQuerySet
      (input.takeWhile (· != '#'))) } : Url).IsExact := by
    refine ⟨h.path, fun query hquery => ?_, h.fragment, h.port⟩
    obtain rfl := Option.some.inj hquery
    exact percent_encode_forall (fun c _ hkept => hkept) (by decide)
  unfold parseQuery
  dsimp only
  rw [if_pos hspecial]
  split
  · exact hquery
  · exact hquery.withFragment _

theorem parse_after_path_exact (h : url.IsExact) (hspecial : url.isSpecial = true)
    (input : ScalarString) : (parseAfterPath url input).IsExact := by
  unfold parseAfterPath
  split
  · exact h
  · split
    · exact h.withQuery hspecial _
    · exact h.withFragment _

/-- The record has no query and fragment yet, and its port is not the default one. -/
structure Url.IsOpen (url : Url) : Prop where
  scheme : url.scheme ∈ httpSchemes
  query : url.query = none
  fragment : url.fragment = none
  port : ∀ port, url.port = some port → defaultPort url.scheme ≠ some port

theorem parse_path_exact (h : url.IsOpen) {path : List ScalarString} (hpath : ArePlain path)
    (input : ScalarString) : (parsePath url path input).IsExact := by
  have hspecial : url.isSpecial = true := http_is_special h.scheme
  have hexact : Url.IsExact { url with
      path := .segments (walkPath url.scheme path
        ((input.takeWhile fun c => c != '?' && c != '#').splitOnP (isSlash true))) } := by
    refine ⟨?_, fun query hquery => ?_, fun fragment hfragment => ?_, h.port⟩
    · obtain ⟨hplain, hne⟩ := @walk_path_leaves_plain url.scheme (http_ne_file h.scheme) path
        ((input.takeWhile fun c => c != '?' && c != '#').splitOnP (isSlash true)) hpath
        (List.splitOnP_ne_nil _ _) fun segment hsegment => split_on_p_forall hsegment
      obtain ⟨segment, rest, hsegments⟩ := List.exists_cons_of_ne_nil hne
      rw [hsegments] at hplain ⊢
      exact ⟨segment, rest, rfl, hplain⟩
    · cases h.query.symm.trans hquery
    · cases h.fragment.symm.trans hfragment
  unfold parsePath
  dsimp only
  rw [hspecial]
  exact parse_after_path_exact hexact hspecial _

theorem no_plain_segments : ArePlain [] := fun _ hsegment => absurd hsegment List.not_mem_nil

theorem parse_path_start_exact (h : url.IsOpen) (input : ScalarString) :
    (parsePathStart url input).IsExact := by
  have hspecial : url.isSpecial = true := http_is_special h.scheme
  unfold parsePathStart
  split
  · rw [if_pos hspecial]
    exact parse_path_exact h no_plain_segments _
  · split
    · exact parse_path_exact h no_plain_segments _
    · rw [hspecial]
      exact parse_path_exact h no_plain_segments _

/-- The port that is kept is not the default one. -/
theorem parse_port_not_default {scheme digits : ScalarString} {port : Nat}
    (h : parsePort scheme digits = some (some port)) : defaultPort scheme ≠ some port := by
  unfold parsePort at h
  split at h
  · cases h
  · split at h
    · cases h
    · split at h
      · cases h
      · split at h
        · cases h
        · split at h
          · cases h
          · rename_i hdefault
            obtain rfl := Option.some.inj (Option.some.inj h)
            exact hdefault

theorem parse_authority_exact {scheme : ScalarString} (hscheme : scheme ∈ httpSchemes)
    (h : parseAuthority idna (.ofScheme scheme) input = some url) : url.IsExact := by
  unfold parseAuthority at h
  dsimp only at h
  split at h
  · cases h
  · split at h
    · cases h
    · obtain ⟨host, -, h⟩ := Option.bind_eq_some_iff.mp h
      obtain ⟨port, hport, h⟩ := Option.bind_eq_some_iff.mp h
      obtain rfl := Option.some.inj h
      refine parse_path_start_exact ⟨hscheme, rfl, rfl, ?_⟩ _
      rintro number rfl
      exact parse_port_not_default hport

/-- An absolute http URL leaves its components as they are read again. -/
theorem parse_absolute_exact (h : parseUrl idna none input = some url)
    (hscheme : url.scheme ∈ httpSchemes) : url.IsExact := by
  unfold parseUrl at h
  dsimp only at h
  cases hsplit : splitScheme (stripInput input) with
  | none =>
      rw [hsplit] at h
      cases h
  | some split =>
      obtain ⟨scheme, rest⟩ := split
      rw [hsplit] at h
      dsimp only [parseAfterScheme] at h
      split at h
      · exact absurd (parse_file_scheme h) (http_ne_file hscheme)
      · split at h
        · simp only [Option.filter_none] at h
          have hkept : url.scheme = scheme := parse_authority_scheme h
          rw [hkept] at hscheme
          exact parse_authority_exact hscheme h
        · -- The scheme is not special, so it is not http or https.
          rename_i hspecial
          suffices url.scheme = scheme from absurd (http_is_special (this ▸ hscheme)) hspecial
          split at h
          · exact parse_authority_scheme h
          · cases h
            exact parse_path_scheme _ _ _
          · cases h
            exact parse_after_path_scheme _ _

/-- So does a reference that starts with a slash, against an http base. -/
theorem parse_rooted_exact {base : Url} {rest : ScalarString} (hbase : base.IsHttp)
    (hexact : base.IsExact) (h : parseUrl idna (some base) ('/' :: rest) = some url) :
    url.IsExact := by
  have hopen : base.withoutTail.IsOpen := ⟨hbase.scheme, rfl, rfl, hexact.port⟩
  rw [parse_rooted hbase] at h
  unfold parseRelativeSlash at h
  split at h
  · obtain rfl := Option.some.inj h
    exact parse_path_exact hopen no_plain_segments _
  · split at h
    · exact parse_authority_exact hbase.scheme h
    · split at h
      · exact parse_authority_exact hbase.scheme h
      · obtain rfl := Option.some.inj h
        exact parse_path_exact hopen no_plain_segments _

/-! ## Reading the path, the query and the fragment again -/

/-- The segments are split again at their separators. -/
theorem split_segments {segment : ScalarString} {rest : List ScalarString}
    (h : ∀ other ∈ segment :: rest, ∀ c ∈ other, isSlash true c = false) :
    (segment ++ rest.flatMap fun other => '/' :: other).splitOnP (isSlash true) =
      segment :: rest := by
  induction rest generalizing segment with
  | nil =>
      rw [List.flatMap_nil, List.append_nil]
      exact List.splitOnP_eq_singleton (h segment List.mem_cons_self)
  | cons next rest ih =>
      rw [List.flatMap_cons, List.cons_append,
        List.splitOnP_append_cons_of_forall_mem (h segment List.mem_cons_self) '/' rfl,
        ih fun other hother => h other (List.mem_cons_of_mem _ hother)]

/-- The characters of a path of plain segments. -/
theorem plain_path_char {segment : ScalarString} {rest : List ScalarString}
    (h : ArePlain (segment :: rest)) {c : Char}
    (hc : c ∈ segment ++ rest.flatMap fun other => '/' :: other) : inPathSet c = false := by
  have hkept {other : ScalarString} (hother : other ∈ segment :: rest) (hc : c ∈ other) :
      inPathSet c = false := by
    have hplain := (h other hother).1
    simp only [isPlainSegment, Bool.and_eq_true, List.all_eq_true, Bool.not_eq_true'] at hplain
    exact hplain.1.1 c hc
  rcases List.mem_append.mp hc with hc | hc
  · exact hkept List.mem_cons_self hc
  · obtain ⟨other, hother, hc⟩ := List.mem_flatMap.mp hc
    rcases List.mem_cons.mp hc with rfl | hc
    · decide
    · exact hkept (List.mem_cons_of_mem _ hother) hc

/-- The text of a query and a fragment. -/
def queryText (query fragment : Option ScalarString) : ScalarString :=
  (query.elim [] fun query => '?' :: query) ++ fragment.elim [] fun fragment => '#' :: fragment

theorem parse_fragment_again {fragment : Option ScalarString} (hurl : url.fragment = none)
    (h : ∀ text, fragment = some text → ∀ c ∈ text, inFragmentSet c = false) :
    parseAfterPath url (fragment.elim [] fun fragment => '#' :: fragment) =
      { url with fragment := fragment } := by
  cases fragment with
  | none =>
      show url = { url with fragment := none }
      rw [← hurl]
  | some fragment =>
      show parseFragment url fragment = _
      rw [parseFragment, percent_encode_eq_self (h fragment rfl)]

theorem parse_query_again {query fragment : Option ScalarString} (hspecial : url.isSpecial = true)
    (hnone : url.query = none ∧ url.fragment = none)
    (hquery : ∀ text, query = some text → ∀ c ∈ text, inSpecialQuerySet c = false)
    (hfragment : ∀ text, fragment = some text → ∀ c ∈ text, inFragmentSet c = false) :
    parseAfterPath url (queryText query fragment) =
      { url with query := query, fragment := fragment } := by
  cases query with
  | none =>
      have hagain := parse_fragment_again hnone.2 hfragment
      show parseAfterPath url (fragment.elim [] fun fragment => '#' :: fragment) = _
      rw [hagain, ← hnone.1]
  | some query =>
      have hmark : ∀ c ∈ query, (c != '#') = true := by
        intro c hc
        have hkept := hquery query rfl c hc
        rw [bne_iff_ne]
        rintro rfl
        cases hkept
      show parseQuery url (query ++ fragment.elim [] fun fragment => '#' :: fragment) = _
      unfold parseQuery
      dsimp only
      rw [if_pos hspecial, List.takeWhile_append_of_pos hmark, List.dropWhile_append_of_pos hmark]
      cases fragment with
      | none =>
          show { url with query := some (percentEncode inSpecialQuerySet (query ++ [])) } = _
          rw [List.append_nil, percent_encode_eq_self (hquery query rfl), ← hnone.2]
      | some fragment =>
          show parseFragment { url with
            query := some (percentEncode inSpecialQuerySet (query ++ [])) } fragment = _
          rw [List.append_nil, percent_encode_eq_self (hquery query rfl), parseFragment,
            percent_encode_eq_self (hfragment fragment rfl)]

/-- The text after the authority is read again. -/
theorem parse_tail_again (h : url.IsExact) (hscheme : url.scheme ∈ httpSchemes) :
    parsePathStart { url with path := .segments [], query := none, fragment := none }
      url.tailText = url := by
  obtain ⟨segment, rest, hpath, hplain⟩ := h.path
  have hspecial : url.isSpecial = true := http_is_special hscheme
  have htail : url.tailText = '/' :: ((segment ++ rest.flatMap fun other => '/' :: other) ++
      queryText url.query url.fragment) := by
    rw [Url.tailText, hpath, queryText]
    simp [serializePath]
  have hmark : ∀ c ∈ segment ++ rest.flatMap fun other => '/' :: other,
      (c != '?' && c != '#') = true := by
    intro c hc
    have hkept := plain_path_char hplain hc
    rw [Bool.and_eq_true, bne_iff_ne, bne_iff_ne]
    constructor <;>
      · rintro rfl
        cases hkept
  have hstop :
      (queryText url.query url.fragment).takeWhile (fun c => c != '?' && c != '#') = [] ∧
        (queryText url.query url.fragment).dropWhile (fun c => c != '?' && c != '#') =
          queryText url.query url.fragment := by
    unfold queryText
    cases url.query with
    | some query => exact ⟨rfl, rfl⟩
    | none =>
        cases url.fragment with
        | some fragment => exact ⟨rfl, rfl⟩
        | none => exact ⟨rfl, rfl⟩
  rw [htail]
  show parsePath { url with path := .segments [], query := none, fragment := none } [] _ = _
  have hset : Url.isSpecial { url with path := .segments [], query := none, fragment := none } =
      true := hspecial
  unfold parsePath
  dsimp only
  rw [List.takeWhile_append_of_pos hmark, List.dropWhile_append_of_pos hmark, hstop.1, hstop.2,
    List.append_nil, hset, split_segments fun other hother => (hplain other hother).2,
    walk_path_plain (http_ne_file hscheme) fun other hother => (hplain other hother).1,
    List.nil_append, ← hpath]
  exact parse_query_again hspecial ⟨rfl, rfl⟩ h.query h.fragment

/-! ## Reading the authority again -/

/-- The text in front of the `@`, if there is one. -/
def Url.credentials (url : Url) : Option ScalarString :=
  if url.username.isEmpty && url.password.isEmpty then none
  else some (url.username ++ (if url.password.isEmpty then [] else ':' :: url.password))

theorem split_credentials_again (h : url.IsFront idna) {host : Host}
    (hhost : url.host = some host) :
    splitCredentials (url.authorityText host) =
      (url.credentials, serializeHost host ++ serializePort url.port) := by
  have hnoat : '@' ∉ serializeHost host ++ serializePort url.port :=
    fun hmem => (host_port_char h hhost hmem).2 rfl
  unfold Url.authorityText Url.loginText Url.credentials
  split
  · exact split_credentials_plain hnoat
  · have hlogin : '@' ∉ url.username ++
        (if url.password.isEmpty then [] else ':' :: url.password) := by
      intro hmem
      have hkept {c : Char} (hc : c ∈ url.username ++ url.password) : c ≠ '@' :=
        (userinfo_char (h.login c hc)).2
      rcases List.mem_append.mp hmem with hmem | hmem
      · exact hkept (List.mem_append_left _ hmem) rfl
      · split at hmem
        · cases hmem
        · rcases List.mem_cons.mp hmem with heq | hmem
          · cases heq
          · exact hkept (List.mem_append_right _ hmem) rfl
    rw [List.append_assoc, List.singleton_append]
    exact split_credentials_login hlogin hnoat

/-- The user name and the password are read again. -/
theorem read_credentials (h : url.IsFront idna) :
    percentEncode inUserinfoSet ((url.credentials.getD []).takeWhile (· != ':')) = url.username ∧
      percentEncode inUserinfoSet (((url.credentials.getD []).dropWhile (· != ':')).drop 1) =
        url.password := by
  have hkept {c : Char} (hc : c ∈ url.username ++ url.password) : inUserinfoSet c = false :=
    h.login c hc
  have husername : percentEncode inUserinfoSet url.username = url.username :=
    percent_encode_eq_self fun c hc => hkept (List.mem_append_left _ hc)
  have hpassword : percentEncode inUserinfoSet url.password = url.password :=
    percent_encode_eq_self fun c hc => hkept (List.mem_append_right _ hc)
  have hcolon : ∀ c ∈ url.username, (c != ':') = true := by
    intro c hc
    have hset := hkept (List.mem_append_left _ hc)
    rw [bne_iff_ne]
    rintro rfl
    cases hset
  unfold Url.credentials
  split
  · rename_i hnone
    rw [Bool.and_eq_true, List.isEmpty_iff, List.isEmpty_iff] at hnone
    rw [hnone.1, hnone.2]
    exact ⟨rfl, rfl⟩
  · rw [Option.getD_some, List.takeWhile_append_of_pos hcolon,
      List.dropWhile_append_of_pos hcolon]
    split
    · rename_i hempty
      rw [List.isEmpty_iff] at hempty
      rw [List.takeWhile_nil, List.append_nil, hempty]
      exact ⟨husername, rfl⟩
    · show percentEncode inUserinfoSet (url.username ++ []) = _ ∧
        percentEncode inUserinfoSet url.password = _
      rw [List.append_nil]
      exact ⟨husername, hpassword⟩

/-- The port that the serializer writes is read again. -/
theorem parse_port_again {scheme : ScalarString} {port : Option Nat}
    (hsmall : ∀ number, port = some number → number ≤ 65535)
    (hdefault : ∀ number, port = some number → defaultPort scheme ≠ some number) :
    parsePort scheme ((port.map (Nat.toDigits 10)).getD []) = some port := by
  cases port with
  | none => rfl
  | some port =>
      have hdigits : (Nat.toDigits 10 port).all isDigit = true :=
        List.all_eq_true.mpr fun c hc => decimal_is_digit hc
      have hempty : (Nat.toDigits 10 port).isEmpty = false := by simp
      have hlimit : ¬ port > 65535 := Nat.not_lt.mpr (hsmall port rfl)
      show parsePort scheme (Nat.toDigits 10 port) = _
      rw [parsePort, hdigits, hempty, digits_value_to_digits (by decide) (by decide)]
      simp only [Bool.not_true, Bool.false_eq_true, if_false, hlimit, hdefault port rfl]

/-- The authority and what follows it are read again. -/
theorem parse_authority_again (h : url.IsParsed idna) (hexact : url.IsExact)
    (hscheme : url.scheme ∈ httpSchemes) {host : Host} (hhost : url.host = some host) :
    parseAuthority idna (.ofScheme url.scheme) (url.authorityText host ++ url.tailText) =
      some url := by
  have hfile := http_ne_file hscheme
  have hspecial : (Url.ofScheme url.scheme).isSpecial = true := http_is_special hscheme
  obtain ⟨hparsed, hbare⟩ := h.front.parsed_host hfile hhost
  have hagain : parseHost idna true (serializeHost host) = some host := hspecial ▸ hparsed.again
  have hne : (serializeHost host).isEmpty = false := by
    rw [List.isEmpty_eq_false_iff]
    intro hempty
    cases hspecial.symm.trans (hbare hempty).1
  have htail : IsTail url.tailText := tail_text_is_tail h.path (by rw [hhost]; rfl)
  have hspan := @span_authority_text idna url h.front host hhost true url.tailText htail
  have hdrop : (url.authorityText host ++ url.tailText).dropWhile
      (fun c => !(isSlash true c || c == '?' || c == '#')) = url.tailText := by
    have hsplit := @List.takeWhile_append_dropWhile _
      (fun c => !(isSlash true c || c == '?' || c == '#')) (url.authorityText host ++ url.tailText)
    rw [hspan] at hsplit
    exact List.append_cancel_left hsplit
  obtain ⟨husername, hpassword⟩ := read_credentials h.front
  unfold parseAuthority
  dsimp only
  rw [hspecial, hspan, hdrop, split_credentials_again h.front hhost]
  dsimp only
  rw [split_host_port (h.front.host_text hhost)]
  dsimp only
  rw [if_neg, if_neg, hagain, show (Url.ofScheme url.scheme).scheme = url.scheme from rfl,
    parse_port_again h.front.port hexact.port, husername, hpassword]
  · show some (parsePathStart { Url.ofScheme url.scheme with
      username := url.username, password := url.password, host := some host, port := url.port }
        url.tailText) = _
    rw [← hhost]
    exact congrArg some (parse_tail_again hexact hscheme)
  · rw [hne]
    exact Bool.false_ne_true
  · rw [Bool.and_eq_true, List.isEmpty_iff, List.append_eq_nil_iff, ← List.isEmpty_iff, hne]
    rintro ⟨-, hempty, -⟩
    cases hempty

/-! ## URLs -/

/-- The text after the scheme is visible, so nothing is stripped. -/
theorem tail_text_visible (h : url.IsExact) {c : Char} (hc : c ∈ url.tailText) :
    isC0Control c = false ∧ c ≠ ' ' := by
  have hquery {c : Char} (hset : inQuerySet c = false) : isC0Control c = false ∧ c ≠ ' ' := by
    simp only [inQuerySet, inC0ControlSet, Bool.or_eq_false_iff, beq_eq_false_iff_ne] at hset
    simp [hset]
  obtain ⟨segment, rest, hpath, hplain⟩ := h.path
  rw [Url.tailText, hpath] at hc
  rcases List.mem_append.mp hc with hc | hc
  · have hc : c ∈ '/' :: (segment ++ rest.flatMap fun other => '/' :: other) := by
      simpa [serializePath] using hc
    rcases List.mem_cons.mp hc with rfl | hc
    · decide
    · have hset := plain_path_char hplain hc
      simp only [inPathSet, Bool.or_eq_false_iff] at hset
      exact hquery hset.1.1.1.1
  · rcases List.mem_append.mp hc with hc | hc
    · cases htext : url.query with
      | none =>
          rw [htext] at hc
          cases hc
      | some query =>
          rw [htext] at hc
          rcases List.mem_cons.mp hc with rfl | hc
          · decide
          · have hset := h.query query htext c hc
            exact hquery (Bool.or_eq_false_iff.mp hset).1
    · cases htext : url.fragment with
      | none =>
          rw [htext] at hc
          cases hc
      | some fragment =>
          rw [htext] at hc
          rcases List.mem_cons.mp hc with rfl | hc
          · decide
          · have hset := h.fragment fragment htext c hc
            simp only [inFragmentSet, inC0ControlSet, Bool.or_eq_false_iff,
              beq_eq_false_iff_ne] at hset
            simp [hset]

/-- The text of a parsed http URL is parsed to this URL. -/
theorem http_url_again (h : url.IsParsed idna) (hexact : url.IsExact)
    (hscheme : url.scheme ∈ httpSchemes) : parseUrl idna none url.serialize = some url := by
  have hspecial : url.isSpecial = true := http_is_special hscheme
  obtain ⟨host, hhost⟩ := Option.isSome_iff_exists.mp (h.front.special hspecial)
  have hvisible : ∀ c ∈ url.serializeAuthority ++ url.tailText,
      isC0Control c = false ∧ c ≠ ' ' := by
    intro c hc
    rcases List.mem_append.mp hc with hc | hc
    · rw [serialize_authority_eq hhost, List.mem_cons, List.mem_cons] at hc
      rcases hc with rfl | rfl | hc
      · decide
      · decide
      · obtain ⟨hcontrol, hspace, -⟩ :=
          authority_char_facts (authority_text_char h.front hhost hc)
        exact ⟨hcontrol, hspace⟩
    · exact tail_text_visible hexact hc
  rw [parse_serialized h, strip_tail_visible hvisible, serialize_authority_eq hhost]
  unfold parseAfterScheme
  rw [if_neg (http_ne_file hscheme), if_pos (http_is_special hscheme), Option.filter_none]
  dsimp only
  rw [List.cons_append, List.cons_append,
    skip_slashes h.front (http_ne_file hscheme) hspecial hhost]
  exact parse_authority_again h hexact hscheme hhost

end Web
