import AgentResolver.Web.ParsedUrls

/-!
# Parsing a URL again

The text of a parsed URL is accepted by the parser (`href_parses`): the components of the authority
are found where the serializer puts them, and what follows the authority cannot fail.
-/

namespace Web

open JavaScript

variable {idna : Idna} {url : Url}

/-! ## Texts after the authority -/

/-- Nothing, or the start of a path, a query or a fragment. -/
def IsTail (s : ScalarString) : Prop := ∀ c, s.head? = some c → c ∈ ['/', '?', '#']

/-- Stripping the end of a text leaves it empty or keeps its first character, unless that is a
control. -/
theorem strip_tail_head {c d : Char} {rest : ScalarString} (hc : isC0Control c = false)
    (h : (stripTail (c :: rest)).head? = some d) : d = c := by
  have hkept : (!(c == '\t' || c == '\n' || c == '\r')) = true := by
    simp only [Bool.not_eq_true', Bool.or_eq_false_iff, beq_eq_false_iff_ne]
    refine ⟨⟨?_, ?_⟩, ?_⟩ <;>
      · rintro rfl
        cases hc
  unfold stripTail at h
  cases hdrop : (c :: rest).rdropWhile (fun c => isC0Control c || c == ' ') with
  | nil =>
      rw [hdrop] at h
      cases h
  | cons e more =>
      have hprefix := List.rdropWhile_prefix (fun c => isC0Control c || c == ' ') (c :: rest)
      rw [hdrop, List.cons_prefix_cons] at hprefix
      rw [hdrop, hprefix.1, List.filter_cons, if_pos hkept] at h
      exact (Option.some.inj h).symm

theorem IsTail.strip {s : ScalarString} (h : IsTail s) : IsTail (stripTail s) := by
  intro d hd
  cases s with
  | nil => cases hd
  | cons c rest =>
      have hc := h c rfl
      have hcontrol : isC0Control c = false :=
        (by decide : ∀ c ∈ ['/', '?', '#'], isC0Control c = false) c hc
      exact strip_tail_head hcontrol hd ▸ hc

/-- The text of a URL after its authority. -/
def Url.tailText (url : Url) : ScalarString :=
  serializePath url.path ++ ((url.query.elim [] fun query => '?' :: query) ++
    url.fragment.elim [] fun fragment => '#' :: fragment)

/-- The query and the fragment start with their marks. -/
theorem head_query_text {query fragment : Option ScalarString} {c : Char}
    (h : ((query.elim [] fun query => '?' :: query) ++
      fragment.elim [] fun fragment => '#' :: fragment).head? = some c) : c ∈ ['?', '#'] := by
  cases query with
  | some query =>
      obtain rfl : '?' = c := Option.some.inj h
      decide
  | none =>
      cases fragment with
      | some fragment =>
          obtain rfl : '#' = c := Option.some.inj h
          decide
      | none => cases h

/-- With a host, the path starts with a slash or is empty. -/
theorem tail_text_is_tail (hpath : IsParsedPath url.host url.path) (hhost : url.host.isSome) :
    IsTail url.tailText := by
  unfold Url.tailText
  cases hurl : url.path with
  | flat path =>
      rw [hurl] at hpath
      rw [hpath.1] at hhost
      cases hhost
  | segments list =>
      cases list with
      | nil => exact fun c hc => List.mem_cons_of_mem _ (head_query_text hc)
      | cons segment rest =>
          intro c hc
          obtain rfl : '/' = c := Option.some.inj hc
          decide

/-! ## Authorities -/

/-- The login as the serializer writes it. -/
def Url.loginText (url : Url) : ScalarString :=
  if url.username.isEmpty && url.password.isEmpty then []
  else url.username ++ (if url.password.isEmpty then [] else ':' :: url.password) ++ ['@']

/-- The authority of a URL with the host. -/
def Url.authorityText (url : Url) (host : Host) : ScalarString :=
  url.loginText ++ (serializeHost host ++ serializePort url.port)

theorem serialize_eq (url : Url) :
    url.serialize = url.scheme ++ ':' :: (url.serializeAuthority ++ url.tailText) := by
  simp [Url.serialize, Url.tailText]

theorem serialize_authority_eq {host : Host} (h : url.host = some host) :
    url.serializeAuthority = '/' :: '/' :: url.authorityText host := by
  simp [Url.serializeAuthority, Url.authorityText, Url.loginText, h]

/-- The characters of a login. -/
theorem userinfo_char {c : Char} (h : inUserinfoSet c = false) : inAuthorityText c ∧ c ≠ '@' := by
  simp only [inUserinfoSet, inPathSet, inQuerySet, inC0ControlSet, Bool.or_eq_false_iff,
    beq_eq_false_iff_ne] at h
  simp [inAuthorityText, h]

/-- The login is empty, or a text without `@` in front of one. -/
theorem login_text_cases (h : url.IsFront idna) :
    url.loginText = [] ∨ ∃ login, url.loginText = login ++ ['@'] ∧
      (url.username ≠ [] ∨ url.password ≠ []) ∧ ∀ c ∈ login, inAuthorityText c ∧ c ≠ '@' := by
  have hkept {c : Char} (hc : c ∈ url.username ++ url.password) : inAuthorityText c ∧ c ≠ '@' :=
    userinfo_char (h.login c hc)
  unfold Url.loginText
  split
  · exact Or.inl rfl
  · rename_i hgiven
    refine Or.inr ⟨_, rfl, by simpa [← not_and_or] using hgiven, fun c hc => ?_⟩
    rcases List.mem_append.mp hc with hc | hc
    · exact hkept (List.mem_append_left _ hc)
    · split at hc
      · cases hc
      · rcases List.mem_cons.mp hc with rfl | hc
        · decide
        · exact hkept (List.mem_append_right _ hc)

/-- The host of a URL is a host text. -/
theorem Url.IsFront.host_text (h : url.IsFront idna) {host : Host} (hhost : url.host = some host) :
    IsHostText (serializeHost host) := by
  rcases h.host host hhost with hparsed | ⟨-, rfl⟩
  · exact hparsed.host_text
  · exact host_text_allowed fun c hc => absurd hc List.not_mem_nil

/-- The host of a URL whose scheme is not `file`. Only hosts that are not special are empty, and
they stand alone. -/
theorem Url.IsFront.parsed_host (h : url.IsFront idna) (hfile : url.scheme ≠ "file".toList)
    {host : Host} (hhost : url.host = some host) :
    IsParsedHost idna url.isSpecial host ∧ (serializeHost host = [] →
      url.isSpecial = false ∧ url.username = [] ∧ url.password = [] ∧ url.port = none) := by
  rcases h.host host hhost with hparsed | ⟨hsame, -⟩
  · refine ⟨hparsed, fun hempty => ?_⟩
    obtain ⟨hspecial, rfl⟩ := hparsed.empty hempty
    exact ⟨hspecial, h.bare (Or.inr hhost)⟩
  · exact absurd hsame hfile

theorem port_text_char {port : Option Nat} {c : Char} (h : c ∈ serializePort port) :
    inAuthorityText c ∧ c ≠ '@' := by
  cases port with
  | none => cases h
  | some port =>
      rcases List.mem_cons.mp h with rfl | h
      · decide
      · exact (domain_char_apart (digit_facts (decimal_is_digit h)).1).1

/-- The characters of the host and the port. -/
theorem host_port_char (h : url.IsFront idna) {host : Host} (hhost : url.host = some host)
    {c : Char} (hc : c ∈ serializeHost host ++ serializePort url.port) :
    inAuthorityText c ∧ c ≠ '@' := by
  rcases List.mem_append.mp hc with hc | hc
  · exact (h.host_text hhost).chars c hc
  · exact port_text_char hc

/-- The characters of an authority. -/
theorem authority_text_char (h : url.IsFront idna) {host : Host} (hhost : url.host = some host)
    {c : Char} (hc : c ∈ url.authorityText host) : inAuthorityText c := by
  rcases List.mem_append.mp hc with hc | hc
  · rcases login_text_cases h with hnone | ⟨login, hlogin, -, hkept⟩
    · rw [hnone] at hc
      cases hc
    · rw [hlogin, List.mem_append, List.mem_singleton] at hc
      rcases hc with hc | rfl
      · exact (hkept c hc).1
      · decide
  · exact (host_port_char h hhost hc).1

/-- The text of an authority ends where what follows it starts. -/
theorem span_authority_text (h : url.IsFront idna) {host : Host} (hhost : url.host = some host)
    {special : Bool} {tail : ScalarString} (htail : IsTail tail) :
    (url.authorityText host ++ tail).takeWhile
        (fun c => !(isSlash special c || c == '?' || c == '#')) = url.authorityText host := by
  have hkept : ∀ c ∈ url.authorityText host,
      (!(isSlash special c || c == '?' || c == '#')) = true := by
    intro c hc
    obtain ⟨-, -, hquery, hfragment, hslash⟩ :=
      authority_char_facts (authority_text_char h hhost hc)
    simp [hslash, hquery, hfragment]
  rw [List.takeWhile_append_of_pos hkept]
  cases tail with
  | nil => exact List.append_nil _
  | cons c rest =>
      have hstop : (!(isSlash special c || c == '?' || c == '#')) = false :=
        (by decide : ∀ special, ∀ c ∈ ['/', '?', '#'],
          (!(isSlash special c || c == '?' || c == '#')) = false) special c (htail c rfl)
      rw [List.takeWhile_cons_of_neg (by rw [hstop]; exact Bool.false_ne_true), List.append_nil]

/-- The slashes in front of the authority of a special URL are skipped, and no others. -/
theorem skip_slashes (h : url.IsFront idna) (hfile : url.scheme ≠ "file".toList)
    (hspecial : url.isSpecial = true) {host : Host} (hhost : url.host = some host)
    (tail : ScalarString) :
    ('/' :: '/' :: (url.authorityText host ++ tail)).dropWhile (isSlash true) =
      url.authorityText host ++ tail := by
  cases htext : url.authorityText host with
  | nil =>
      have hempty := (List.append_eq_nil_iff.mp (List.append_eq_nil_iff.mp htext).2).1
      obtain ⟨hplain, -⟩ := (h.parsed_host hfile hhost).2 hempty
      rw [hspecial] at hplain
      cases hplain
  | cons c rest =>
      obtain ⟨-, -, -, -, hslash⟩ :=
        authority_char_facts (authority_text_char h hhost (htext ▸ List.mem_cons_self : c ∈ _))
      show (c :: (rest ++ tail)).dropWhile (isSlash true) = c :: (rest ++ tail)
      exact List.dropWhile_cons_of_neg (by simp [hslash])

/-- A login is split off at its `@`. -/
theorem split_credentials_login {login rest : ScalarString} (hlogin : '@' ∉ login)
    (hrest : '@' ∉ rest) :
    splitCredentials (login ++ '@' :: rest) = (some login, rest) := by
  rw [splitCredentials, List.splitOn_append_cons_self_of_not_mem hlogin,
    List.splitOn_eq_singleton hrest]
  show (some (['@'].intercalate [login]), rest) = _
  rw [List.intercalate_singleton]

/-- The host and the port stand apart in front of the path. -/
theorem split_host_port {host : ScalarString} (h : IsHostText host) (port : Option Nat) :
    splitPort false (host ++ serializePort port) = (host, port.map (Nat.toDigits 10)) := by
  rw [h.port]
  cases port with
  | none =>
      show (host ++ [], none) = _
      rw [List.append_nil]
      rfl
  | some port =>
      show (host ++ [], some (Nat.toDigits 10 port)) = _
      rw [List.append_nil]
      rfl

/-- The port that the serializer writes is accepted. -/
theorem parse_port_text {scheme : ScalarString} {port : Option Nat}
    (h : ∀ number, port = some number → number ≤ 65535) :
    (parsePort scheme ((port.map (Nat.toDigits 10)).getD [])).isSome := by
  cases port with
  | none => rfl
  | some port =>
      have hdigits : (Nat.toDigits 10 port).all isDigit = true :=
        List.all_eq_true.mpr fun c hc => decimal_is_digit hc
      have hempty : (Nat.toDigits 10 port).isEmpty = false := by simp
      have hsmall : ¬ port > 65535 := Nat.not_lt.mpr (h port rfl)
      show (parsePort scheme (Nat.toDigits 10 port)).isSome
      rw [parsePort, hdigits, hempty, digits_value_to_digits (by decide) (by decide)]
      simp only [Bool.not_true, Bool.false_eq_true, if_false, hsmall]
      split
      · rfl
      · rfl

/-- The login is split off; it stands only in front of a host with a text. -/
theorem split_authority_text (h : url.IsFront idna) (hfile : url.scheme ≠ "file".toList)
    {host : Host} (hhost : url.host = some host) :
    ∃ credentials, splitCredentials (url.authorityText host) =
        (credentials, serializeHost host ++ serializePort url.port) ∧
      (credentials.isSome → serializeHost host ≠ []) := by
  have hnoat : '@' ∉ serializeHost host ++ serializePort url.port :=
    fun hmem => (host_port_char h hhost hmem).2 rfl
  rcases login_text_cases h with hnone | ⟨login, hlogin, hgiven, hkept⟩
  · refine ⟨none, ?_, fun hsome => by cases hsome⟩
    rw [Url.authorityText, hnone]
    exact split_credentials_plain hnoat
  · refine ⟨some login, ?_, fun _ hempty => ?_⟩
    · rw [Url.authorityText, hlogin, List.append_assoc]
      exact split_credentials_login (fun hmem => (hkept '@' hmem).2 rfl) hnoat
    · obtain ⟨-, husername, hpassword, -⟩ := (h.parsed_host hfile hhost).2 hempty
      exact hgiven.elim (absurd husername) (absurd hpassword)

/-- The authority of a parsed URL whose scheme is not `file` is accepted. -/
theorem parse_authority_text (h : url.IsFront idna) (hfile : url.scheme ≠ "file".toList)
    {host : Host} (hhost : url.host = some host) {tail : ScalarString} (htail : IsTail tail) :
    (parseAuthority idna (.ofScheme url.scheme) (url.authorityText host ++ tail)).isSome := by
  obtain ⟨hparsed, hbare⟩ := h.parsed_host hfile hhost
  obtain ⟨credentials, hcredentials, hlogin⟩ := split_authority_text h hfile hhost
  obtain ⟨port, hport⟩ := Option.isSome_iff_exists.mp (@parse_port_text url.scheme url.port h.port)
  unfold parseAuthority
  dsimp only
  rw [span_authority_text h hhost htail, hcredentials]
  dsimp only
  rw [split_host_port (h.host_text hhost)]
  dsimp only
  rw [if_neg, if_neg]
  · rw [show (Url.ofScheme url.scheme).isSpecial = url.isSpecial from rfl, hparsed.again,
      show (Url.ofScheme url.scheme).scheme = url.scheme from rfl, hport]
    rfl
  · intro hguard
    rw [Bool.and_eq_true, List.isEmpty_iff] at hguard
    obtain ⟨hspecial, -, -, hnoport⟩ := hbare hguard.1
    rw [hnoport, show (Url.ofScheme url.scheme).isSpecial = url.isSpecial from rfl,
      hspecial] at hguard
    cases hguard.2
  · intro hguard
    rw [Bool.and_eq_true, List.isEmpty_iff, List.append_eq_nil_iff] at hguard
    exact hlogin hguard.1 hguard.2.1

/-! ## URLs -/

/-- Where the text of a URL goes after its scheme. -/
theorem parse_serialized (h : url.IsParsed idna) :
    parseUrl idna none url.serialize =
      parseAfterScheme idna none url.scheme
        (stripTail (url.serializeAuthority ++ url.tailText)) := by
  have hscheme := h.front.scheme
  have hvisible : ∀ c ∈ url.scheme ++ [':'], isC0Control c = false ∧ c ≠ ' ' := by
    intro c hc
    rcases List.mem_append.mp hc with hc | hc
    · obtain ⟨-, hcontrol, hspace, -⟩ := scheme_char_facts (hscheme.chars c hc).1
      exact ⟨hcontrol, hspace⟩
    · rw [List.mem_singleton.mp hc]
      decide
  unfold parseUrl
  rw [serialize_eq, List.append_cons, strip_input_append (by simp) hvisible, ← List.append_cons]
  simp only [hscheme.split]

/-- With a host, the authority and what follows it are found. -/
theorem strip_authority (h : url.IsParsed idna) {host : Host} (hhost : url.host = some host) :
    ∃ tail, IsTail tail ∧ stripTail (url.serializeAuthority ++ url.tailText) =
      '/' :: '/' :: (url.authorityText host ++ tail) := by
  refine ⟨stripTail url.tailText,
    (tail_text_is_tail h.path (Option.isSome_iff_exists.mpr ⟨host, hhost⟩)).strip, ?_⟩
  have hvisible : ∀ c ∈ url.serializeAuthority, isC0Control c = false ∧ c ≠ ' ' := by
    intro c hc
    have hchar : inAuthorityText c ∨ c = '/' := by
      rw [serialize_authority_eq hhost, List.mem_cons, List.mem_cons] at hc
      rcases hc with hc | hc | hc
      · exact Or.inr hc
      · exact Or.inr hc
      · exact Or.inl (authority_text_char h.front hhost hc)
    rcases hchar with hchar | rfl
    · obtain ⟨hcontrol, hspace, -⟩ := authority_char_facts hchar
      exact ⟨hcontrol, hspace⟩
    · decide
  rw [strip_tail_append hvisible, serialize_authority_eq hhost]
  rfl

/-- A text that neither a slash nor a control starts. -/
def StartsPlain (s : ScalarString) : Prop :=
  ∀ c, s.head? = some c → isC0Control c = false ∧ c ≠ '/'

theorem StartsPlain.strip {s : ScalarString} (h : StartsPlain s) :
    (stripTail s).head? ≠ some '/' := by
  intro hhead
  cases s with
  | nil => cases hhead
  | cons c rest =>
      obtain ⟨hcontrol, hslash⟩ := h c rfl
      exact hslash (strip_tail_head hcontrol hhead).symm

theorem starts_plain_query (query fragment : Option ScalarString) :
    StartsPlain ((query.elim [] fun query => '?' :: query) ++
      fragment.elim [] fun fragment => '#' :: fragment) := fun c hc =>
  (by decide : ∀ c ∈ ['?', '#'], isC0Control c = false ∧ c ≠ '/') c (head_query_text hc)

/-- Without a host, at most one slash follows the scheme. -/
theorem text_without_host (hpath : IsParsedPath url.host url.path) (hhost : url.host = none) :
    StartsPlain (url.serializeAuthority ++ url.tailText) ∨
      ∃ more, url.serializeAuthority ++ url.tailText = '/' :: more ∧ StartsPlain more := by
  have hquery := starts_plain_query url.query url.fragment
  unfold Url.serializeAuthority Url.tailText
  rw [hhost]
  cases hurl : url.path with
  | flat path =>
      rw [hurl] at hpath
      left
      cases path with
      | nil => exact hquery
      | cons c rest => exact fun d hd => hpath.2 d hd
  | segments list =>
      rw [hurl] at hpath
      cases list with
      | nil => exact Or.inl hquery
      | cons segment rest =>
          right
          cases segment with
          | nil =>
              cases rest with
              | nil => exact ⟨_, rfl, hquery⟩
              | cons next rest =>
                  -- The serializer writes `/.` in front of a path that starts with two slashes.
                  refine ⟨_, rfl, fun c hc => ?_⟩
                  obtain rfl : '.' = c := Option.some.inj hc
                  decide
          | cons c segment =>
              refine ⟨_, rfl, fun d hd => ?_⟩
              obtain rfl : c = d := Option.some.inj hd
              obtain ⟨hkept, hslash⟩ := hpath _ List.mem_cons_self c List.mem_cons_self
              simp only [inPathSet, inQuerySet, inC0ControlSet, Bool.or_eq_false_iff] at hkept
              exact ⟨by simp [hkept], hslash⟩

/-- Without a host, no authority is read. -/
theorem strip_no_authority (hpath : IsParsedPath url.host url.path) (hhost : url.host = none)
    (rest : ScalarString) :
    stripTail (url.serializeAuthority ++ url.tailText) ≠ '/' :: '/' :: rest := by
  intro htext
  rcases text_without_host hpath hhost with hplain | ⟨more, hmore, hplain⟩
  · exact hplain.strip (by rw [htext]; rfl)
  · have hstrip : stripTail ('/' :: more) = '/' :: stripTail more :=
      @strip_tail_append ['/'] (by decide) more
    rw [hmore, hstrip] at htext
    refine hplain.strip ?_
    rw [(List.cons.inj htext).2]
    rfl

/-- A `file` URL is accepted. -/
theorem parse_file_text (h : url.IsParsed idna) (hfile : url.scheme = "file".toList) :
    (parseFile idna none (stripTail (url.serializeAuthority ++ url.tailText))).isSome := by
  have hspecial : url.isSpecial = true := by
    rw [Url.isSpecial, hfile]
    decide
  obtain ⟨host, hhost⟩ := Option.isSome_iff_exists.mp (h.front.special hspecial)
  obtain ⟨tail, htail, hstrip⟩ := strip_authority h hhost
  obtain ⟨husername, hpassword, hport⟩ := h.front.bare (Or.inl hfile)
  have htext : url.authorityText host = serializeHost host := by
    simp [Url.authorityText, Url.loginText, husername, hpassword, hport, serializePort]
  have hspan := @span_authority_text idna url h.front host hhost true tail htail
  rw [htext] at hspan
  have hhostState : (parseFileHost idna emptyFile (serializeHost host ++ tail)).isSome := by
    unfold parseFileHost
    dsimp only
    rw [hspan]
    split
    · rfl
    · split
      · rfl
      · rename_i hgiven
        rcases h.front.host host hhost with hparsed | ⟨-, rfl⟩
        · rw [hspecial] at hparsed
          rw [hparsed.again]
          rfl
        · exact absurd rfl hgiven
  rw [hstrip, htext]
  exact hhostState

/-- The text of a parsed URL is accepted by the parser. -/
theorem serialize_parses (h : url.IsParsed idna) : (parseUrl idna none url.serialize).isSome := by
  rw [parse_serialized h]
  unfold parseAfterScheme
  split
  · rename_i hfile
    exact parse_file_text h hfile
  · rename_i hfile
    cases hhost : url.host with
    | some host =>
        obtain ⟨tail, htail, hstrip⟩ := strip_authority h hhost
        have hauthority := parse_authority_text h.front hfile hhost htail
        rw [hstrip]
        split
        · rename_i hspecial
          rw [Option.filter_none]
          dsimp only
          rw [skip_slashes h.front hfile hspecial hhost]
          exact hauthority
        · exact hauthority
    | none =>
        split
        · rename_i hspecial
          have hsome := h.front.special hspecial
          rw [hhost] at hsome
          cases hsome
        · split
          · rename_i htext
            exact absurd htext (strip_no_authority h.path hhost _)
          · rfl
          · rfl

/-- `new URL` accepts the `href` of a URL that it returned. -/
theorem href_parses (h : url.IsParsed idna) : (newUrl idna url.href).isSome := by
  rw [newUrl, Url.href, to_scalars_of_scalars]
  exact serialize_parses h

/-- What `new URL` returns is a parsed URL, with a base or without one. -/
theorem new_url_parsed (hidna : idna.IsStable) {input : JSString}
    (h : newUrl idna input = some url) : url.IsParsed idna :=
  parse_url_parsed hidna (fun b hb => by cases hb) h

theorem new_url_with_base_parsed (hidna : idna.IsStable) {input base : JSString}
    (h : newUrlWithBase idna input base = some url) : url.IsParsed idna := by
  unfold newUrlWithBase at h
  split at h
  · cases h
  · rename_i parsed hbase
    refine parse_url_parsed hidna (fun b hb => ?_) h
    exact Option.some.inj hb ▸ new_url_parsed hidna hbase

end Web
