import AgentResolver.Web.HostRoundTrip

/-!
# Parsed URLs

What the URL parser returns: `Url.IsFront` is about the components up to the port, which the states
after the authority do not change, and `IsParsedPath` about the path. `parse_url_parsed` says that
every URL that is parsed, also relative to a parsed base, is a parsed one.
-/

namespace Web

variable {idna : Idna} {base : Option Url} {url : Url} {input : ScalarString}

/-! ## Schemes -/

/-- A character that may stand in a scheme. -/
def inScheme (c : Char) : Bool := isAlphaChar c || isDigit c || c == '+' || c == '-' || c == '.'

/-- A letter and more characters of schemes, in lower case. -/
structure IsScheme (s : ScalarString) : Prop where
  head : s.head?.any isAlphaChar
  chars : ∀ c ∈ s, inScheme c ∧ asciiLowerChar c = c

theorem alpha_char_ascii {c : Char} (h : isAlphaChar c) : isAsciiChar c := by
  simp only [isAlphaChar, Bool.or_eq_true, Bool.and_eq_true, decide_eq_true_eq, Char.le_def,
    UInt32.le_iff_toNat_le] at h
  rcases h with ⟨-, h⟩ | ⟨-, h⟩
  · exact decide_eq_true (Nat.lt_of_le_of_lt h (by decide))
  · exact decide_eq_true (Nat.lt_of_le_of_lt h (by decide))

theorem scheme_char_ascii {c : Char} (h : inScheme c) : isAsciiChar c := by
  simp only [inScheme, Bool.or_eq_true, beq_iff_eq] at h
  rcases h with (((h | h) | rfl) | rfl) | rfl
  · exact alpha_char_ascii h
  · exact domain_char_ascii (digit_facts h).1
  · decide
  · decide
  · decide

/-- What the parser does with the characters of schemes. -/
theorem scheme_char_facts {c : Char} (h : inScheme c) :
    inScheme (asciiLowerChar c) ∧ isC0Control c = false ∧ c ≠ ' ' ∧ c ≠ ':' ∧
      (isAlphaChar c → isAlphaChar (asciiLowerChar c)) := by
  have hall : ∀ n < 0x80, inScheme (Char.ofNat n) → inScheme (asciiLowerChar (Char.ofNat n)) ∧
      isC0Control (Char.ofNat n) = false ∧ Char.ofNat n ≠ ' ' ∧ Char.ofNat n ≠ ':' ∧
      (isAlphaChar (Char.ofNat n) → isAlphaChar (asciiLowerChar (Char.ofNat n))) := by
    decide
  exact @ascii_char_induction (fun c => inScheme c → inScheme (asciiLowerChar c) = true ∧
    isC0Control c = false ∧ c ≠ ' ' ∧ c ≠ ':' ∧
    (isAlphaChar c → isAlphaChar (asciiLowerChar c) = true)) hall c (scheme_char_ascii h) h

/-- The scheme that is split off is one. -/
theorem split_scheme_some {scheme rest : ScalarString}
    (h : splitScheme input = some (scheme, rest)) : IsScheme scheme := by
  cases input with
  | nil => cases h
  | cons c tail =>
      unfold splitScheme at h
      dsimp only at h
      split at h
      · rename_i halpha
        split at h
        · obtain ⟨rfl, -⟩ := Prod.mk.inj (Option.some.inj h)
          have hchar : ∀ d ∈ c :: tail.takeWhile inScheme, inScheme d := by
            intro d hd
            rcases List.mem_cons.mp hd with rfl | hd
            · simp [inScheme, halpha]
            · exact List.mem_takeWhile_imp hd
          constructor
          · exact (scheme_char_facts (hchar c List.mem_cons_self)).2.2.2.2 halpha
          · intro d hd
            obtain ⟨source, hsource, rfl⟩ := List.mem_map.mp hd
            exact ⟨(scheme_char_facts (hchar source hsource)).1, (lower_char_again source).1⟩
        · cases h
      · cases h

/-- A scheme in front of a colon is split off. -/
theorem IsScheme.split {scheme : ScalarString} (h : IsScheme scheme) (rest : ScalarString) :
    splitScheme (scheme ++ ':' :: rest) = some (scheme, rest) := by
  cases scheme with
  | nil => cases h.head
  | cons c tail =>
      have hkept : ∀ d ∈ tail, inScheme d := fun d hd => (h.chars d (List.mem_cons_of_mem _ hd)).1
      have htake : (tail ++ ':' :: rest).takeWhile
          (fun d => isAlphaChar d || isDigit d || d == '+' || d == '-' || d == '.') = tail :=
        (List.takeWhile_append_of_pos hkept).trans (List.append_nil tail)
      have hdrop : (tail ++ ':' :: rest).dropWhile
          (fun d => isAlphaChar d || isDigit d || d == '+' || d == '-' || d == '.') =
            ':' :: rest :=
        List.dropWhile_append_of_pos hkept
      have hlower : (c :: tail).map asciiLowerChar = c :: tail := by
        rw [List.map_congr_left fun d hd => (h.chars d hd).2]
        exact List.map_id _
      have halpha : isAlphaChar c = true := h.head
      rw [List.cons_append, splitScheme, if_pos halpha, hdrop, htake, hlower]
      rfl

/-! ## Paths -/

/-- The parts between separators have none. -/
theorem split_on_p_forall {α : Type} {p : α → Bool} {xs part : List α}
    (h : part ∈ xs.splitOnP p) : ∀ x ∈ part, p x = false := by
  induction xs generalizing part with
  | nil =>
      rw [List.splitOnP_nil, List.mem_singleton] at h
      rw [h]
      intro x hx
      cases hx
  | cons x rest ih =>
      rw [List.splitOnP_cons_eq_if_modifyHead] at h
      split at h
      · rcases List.mem_cons.mp h with rfl | h
        · intro y hy
          cases hy
        · exact ih h
      · rename_i hx
        cases hparts : rest.splitOnP p with
        | nil => exact absurd hparts (List.splitOnP_ne_nil p rest)
        | cons first more =>
            rw [hparts, List.modifyHead_cons] at h
            rcases List.mem_cons.mp h with rfl | h
            · intro y hy
              rcases List.mem_cons.mp hy with rfl | hy
              · simpa using hx
              · exact ih (hparts ▸ List.mem_cons_self) y hy
            · exact ih (hparts ▸ List.mem_cons_of_mem _ h)

/-- A segment that is encoded and has no slash. -/
def IsSegment (segment : ScalarString) : Prop := ∀ c ∈ segment, inPathSet c = false ∧ c ≠ '/'

def AreSegments (list : List ScalarString) : Prop := ∀ segment ∈ list, IsSegment segment

/-- The path of a parsed URL: encoded segments, or, without a host, an opaque path that does not
start with a slash. -/
def IsParsedPath (host : Option Host) : UrlPath → Prop
  | .segments list => AreSegments list
  | .flat path => host = none ∧ ∀ c, path.head? = some c → isC0Control c = false ∧ c ≠ '/'

theorem shorten_path_segments {scheme : ScalarString} {path : List ScalarString}
    (h : AreSegments path) : AreSegments (shortenPath scheme path) := by
  unfold shortenPath
  split
  · split
    · exact h
    · exact fun segment hsegment => absurd hsegment List.not_mem_nil
  · exact fun segment hsegment => h segment ((List.dropLast_sublist _).mem hsegment)

theorem add_segment_segments {scheme segment : ScalarString} {path : List ScalarString}
    {last : Bool} (h : AreSegments path) (hsegment : IsSegment segment) :
    AreSegments (addSegment scheme path segment last) := by
  have hempty : IsSegment [] := fun c hc => absurd hc List.not_mem_nil
  have hsnoc {path : List ScalarString} {segment : ScalarString} (h : AreSegments path)
      (hsegment : IsSegment segment) : AreSegments (path ++ [segment]) := by
    intro other hother
    rcases List.mem_append.mp hother with hother | hother
    · exact h other hother
    · exact List.mem_singleton.mp hother ▸ hsegment
  unfold addSegment
  split
  · split
    · exact hsnoc (shorten_path_segments h) hempty
    · exact shorten_path_segments h
  · split
    · split
      · exact hsnoc h hempty
      · exact h
    · split
      · refine hsnoc h fun c hc => ?_
        rcases List.mem_append.mp hc with hc | hc
        · exact hsegment c (List.mem_of_mem_take hc)
        · rw [List.mem_singleton.mp hc]
          decide
      · exact hsnoc h hsegment

/-- The path state adds encoded segments. -/
theorem walk_path_segments {scheme : ScalarString} {path segments : List ScalarString}
    (h : AreSegments path) (hsegments : ∀ segment ∈ segments, '/' ∉ segment) :
    AreSegments (walkPath scheme path segments) := by
  have hencoded (segment : ScalarString) (hslash : '/' ∉ segment) :
      IsSegment (percentEncode inPathSet segment) := by
    refine percent_encode_forall (fun c hc hkept => ⟨hkept, ?_⟩) (by decide)
    rintro rfl
    exact hslash hc
  induction segments generalizing path with
  | nil => exact h
  | cons segment rest ih =>
      have hfirst := hencoded segment (hsegments segment List.mem_cons_self)
      cases rest with
      | nil => exact add_segment_segments h hfirst
      | cons next rest =>
          exact ih (add_segment_segments h hfirst) fun other hother =>
            hsegments other (List.mem_cons_of_mem _ hother)

/-! ## Records -/

/-- The components of a parsed URL up to the port. -/
structure Url.IsFront (idna : Idna) (url : Url) : Prop where
  scheme : IsScheme url.scheme
  special : url.isSpecial → url.host.isSome
  host : ∀ host, url.host = some host → IsParsedHost idna url.isSpecial host ∨
    url.scheme = "file".toList ∧ host = .nonSpecial []
  login : ∀ c ∈ url.username ++ url.password, inUserinfoSet c = false
  port : ∀ port, url.port = some port → port ≤ 65535
  bare : url.scheme = "file".toList ∨ url.host = some (.nonSpecial []) →
    url.username = [] ∧ url.password = [] ∧ url.port = none

/-- A parsed URL. Nothing is asked of the query and the fragment. -/
structure Url.IsParsed (idna : Idna) (url : Url) : Prop where
  front : url.IsFront idna
  path : IsParsedPath url.host url.path

namespace Url.IsFront

/-- The path, the query and the fragment are not part of the front. -/
theorem withTail (h : url.IsFront idna) (path : UrlPath) (query fragment : Option ScalarString) :
    (url.withTail path query fragment).IsFront idna :=
  ⟨h.scheme, h.special, h.host, h.login, h.port, h.bare⟩

/-- A scheme that is not special, without a host. -/
theorem of_scheme {scheme : ScalarString} (h : IsScheme scheme)
    (hspecial : isSpecialScheme scheme = false) : (Url.ofScheme scheme).IsFront idna where
  scheme := h
  special hscheme := absurd (hspecial.symm.trans hscheme) Bool.false_ne_true
  host host hhost := by cases hhost
  login c hc := absurd hc List.not_mem_nil
  port port hport := by cases hport
  bare _ := ⟨rfl, rfl, rfl⟩

/-- A `file` record with a parsed host, or without a host name. -/
theorem file {host : Host} (h : IsParsedHost idna true host ∨ host = .nonSpecial []) :
    ({ emptyFile with host := some host } : Url).IsFront idna where
  scheme := (⟨by decide, by decide⟩ : IsScheme "file".toList)
  special _ := rfl
  host other hother := by
    obtain rfl := Option.some.inj hother
    exact h.imp id fun hempty => ⟨rfl, hempty⟩
  login c hc := absurd hc List.not_mem_nil
  port port hport := by cases hport
  bare _ := ⟨rfl, rfl, rfl⟩

end Url.IsFront

/-! ## After the authority -/

theorem parse_after_path_parsed (h : url.IsParsed idna) (input : ScalarString) :
    (parseAfterPath url input).IsParsed idna := by
  obtain ⟨query, fragment, htail⟩ := parse_after_path_tail url input
  rw [htail]
  exact ⟨h.front.withTail _ _ _, h.path⟩

theorem parse_query_parsed (h : url.IsParsed idna) (input : ScalarString) :
    (parseQuery url input).IsParsed idna := by
  obtain ⟨query, fragment, htail⟩ := parse_query_tail url input
  rw [htail]
  exact ⟨h.front.withTail _ _ _, h.path⟩

/-- Replacing the query and the fragment keeps a parsed URL one. -/
theorem Url.IsParsed.withQuery (h : url.IsParsed idna) (query fragment : Option ScalarString) :
    ({ url with query := query, fragment := fragment } : Url).IsParsed idna :=
  ⟨h.front.withTail url.path query fragment, h.path⟩

/-- The path state adds to a list of segments. -/
theorem parse_path_parsed (h : url.IsFront idna) {path : List ScalarString}
    (hpath : AreSegments path) (input : ScalarString) :
    (parsePath url path input).IsParsed idna := by
  refine parse_after_path_parsed ⟨h.withTail _ url.query url.fragment, ?_⟩ _
  refine walk_path_segments hpath fun segment hsegment hslash => ?_
  have hkept := split_on_p_forall hsegment '/' hslash
  cases hkept

theorem parse_path_start_parsed (h : url.IsParsed idna) (input : ScalarString) :
    (parsePathStart url input).IsParsed idna := by
  have hempty : AreSegments [] := fun segment hsegment => absurd hsegment List.not_mem_nil
  unfold parsePathStart
  split
  · split
    · exact parse_path_parsed h.front hempty _
    · exact h
  · split
    · exact parse_path_parsed h.front hempty _
    · split
      · exact parse_after_path_parsed h _
      · exact parse_path_parsed h.front hempty _

/-- The opaque path state, where no slash follows the scheme. -/
theorem parse_flat_path_parsed (h : url.IsFront idna) (hhost : url.host = none)
    (hslash : input.head? ≠ some '/') : (parseFlatPath url input).IsParsed idna := by
  refine @parse_after_path_parsed idna { url with path := .flat (percentEncode inC0ControlSet
    (input.takeWhile fun c => c != '?' && c != '#')) }
    ⟨h.withTail (.flat _) url.query url.fragment, hhost, fun c hc => ?_⟩ _
  have hkept := percent_encode_forall (fun c _ hkept => hkept) (by decide) c (List.mem_of_head? hc)
  refine ⟨(Bool.or_eq_false_iff.mp hkept).1, ?_⟩
  rintro rfl
  rcases percent_encode_head hc with hescape | hhead
  · cases hescape
  · cases input with
    | nil => cases hhead
    | cons d rest =>
        rw [List.takeWhile_cons] at hhead
        split at hhead
        · exact hslash hhead
        · cases hhead

/-! ## Authorities -/

theorem parse_port_le {scheme digits : ScalarString} {port : Nat}
    (h : parsePort scheme digits = some (some port)) : port ≤ 65535 := by
  unfold parsePort at h
  split at h
  · cases h
  · split at h
    · cases h
    · split at h
      · cases h
      · split at h
        · cases h
        · rename_i hsmall
          split at h
          · cases h
          · obtain rfl := Option.some.inj (Option.some.inj h)
            omega

/-- Nothing is split into no host and no port. -/
theorem split_port_empty {s : ScalarString} (h : splitPort false s = ([], none)) : s = [] := by
  cases s with
  | nil => rfl
  | cons c rest =>
      unfold splitPort at h
      split at h
      · cases h
      · cases h

/-- In an authority that is accepted, an empty host text stands alone. -/
theorem empty_host_alone {credentials : Option ScalarString} {hostPort : ScalarString}
    {special : Bool} (hlogin : ¬(credentials.isSome && hostPort.isEmpty) = true)
    (hempty : ¬((splitPort false hostPort).1.isEmpty &&
      (special || (splitPort false hostPort).2.isSome)) = true)
    (h : (splitPort false hostPort).1 = []) :
    credentials = none ∧ (splitPort false hostPort).2 = none := by
  have hport : (splitPort false hostPort).2 = none := by
    rw [h, List.isEmpty_nil, Bool.true_and, Bool.or_eq_true, not_or] at hempty
    simpa using hempty.2
  have hnothing : hostPort = [] := split_port_empty (Prod.ext h hport)
  rw [hnothing] at hlogin
  exact ⟨by simpa using hlogin, hport⟩

/-- The authority state. -/
theorem parse_authority_parsed (hidna : idna.IsStable) {scheme : ScalarString}
    (hscheme : IsScheme scheme) (hfile : scheme ≠ "file".toList)
    (h : parseAuthority idna (.ofScheme scheme) input = some url) : url.IsParsed idna := by
  unfold parseAuthority at h
  dsimp only at h
  split at h
  · cases h
  · rename_i hlogin
    split at h
    · cases h
    · rename_i hempty
      obtain ⟨host, hhost, h⟩ := Option.bind_eq_some_iff.mp h
      obtain ⟨port, hport, h⟩ := Option.bind_eq_some_iff.mp h
      obtain rfl := Option.some.inj h
      refine parse_path_start_parsed ⟨⟨hscheme, fun _ => rfl, ?_, ?_, ?_, ?_⟩, ?_⟩ _
      · intro other hother
        obtain rfl := Option.some.inj hother
        exact Or.inl (parse_host_parsed hidna hhost)
      · intro c hc
        rcases List.mem_append.mp hc with hc | hc
        · exact percent_encode_forall (fun c _ hkept => hkept) (by decide) c hc
        · exact percent_encode_forall (fun c _ hkept => hkept) (by decide) c hc
      · rintro number rfl
        exact parse_port_le hport
      · -- An empty host text stands alone in its authority.
        rintro (hsame | hbare)
        · exact absurd hsame hfile
        · obtain rfl := Option.some.inj hbare
          obtain ⟨hspecial, -⟩ := (parse_host_parsed hidna hhost).empty rfl
          have htext := parse_host_empty hspecial hhost
          obtain ⟨hcredentials, hportText⟩ := empty_host_alone hlogin hempty htext
          simp only [hcredentials, hportText] at hport ⊢
          exact ⟨rfl, rfl, (Option.some.inj hport).symm⟩
      · exact fun segment hsegment => absurd hsegment List.not_mem_nil

/-! ## Relative references and files -/

theorem no_segments : AreSegments [] := fun _ hsegment => absurd hsegment List.not_mem_nil

/-- The segments of a parsed URL. -/
theorem Url.IsParsed.path_segments (h : url.IsParsed idna) :
    AreSegments (pathSegments url.path) := by
  have hpath := h.path
  cases hurl : url.path with
  | segments list =>
      rw [hurl] at hpath
      exact hpath
  | flat path => exact no_segments

theorem parse_file_host_parsed (hidna : idna.IsStable)
    (h : parseFileHost idna emptyFile input = some url) : url.IsParsed idna := by
  have hempty : emptyFile.IsFront idna := Url.IsFront.file (Or.inr rfl)
  unfold parseFileHost at h
  dsimp only at h
  split at h
  · obtain rfl := Option.some.inj h
    exact parse_path_parsed hempty no_segments _
  · split at h
    · obtain rfl := Option.some.inj h
      exact parse_path_start_parsed ⟨hempty, no_segments⟩ _
    · obtain ⟨host, hhost, h⟩ := Option.bind_eq_some_iff.mp h
      obtain rfl := Option.some.inj h
      refine parse_path_start_parsed ⟨Url.IsFront.file ?_, no_segments⟩ _
      split
      · exact Or.inr rfl
      · exact Or.inl (parse_host_parsed hidna hhost)

/-- The file slash state; the host of a base is kept. -/
theorem parse_file_slash_parsed (hidna : idna.IsStable)
    (hbase : ∀ b, base = some b → b.IsParsed idna ∧ b.scheme = "file".toList)
    (h : parseFileSlash idna base input = some url) : url.IsParsed idna := by
  unfold parseFileSlash at h
  split at h
  · exact parse_file_host_parsed hidna h
  · cases base with
    | none =>
        obtain rfl := Option.some.inj h
        exact parse_path_parsed (Url.IsFront.file (Or.inr rfl)) no_segments _
    | some base =>
        obtain rfl := Option.some.inj h
        obtain ⟨hparsed, hfile⟩ := hbase base rfl
        have hspecial : base.isSpecial = true := by
          rw [Url.isSpecial, hfile]
          decide
        obtain ⟨host, hhost⟩ := Option.isSome_iff_exists.mp (hparsed.front.special hspecial)
        have hkept := hparsed.front.host host hhost
        rw [hspecial] at hkept
        rw [hhost]
        refine parse_path_parsed (Url.IsFront.file (hkept.imp id And.right)) ?_ _
        split
        · intro segment hsegment
          exact hparsed.path_segments segment (List.mem_of_mem_take hsegment)
        · exact no_segments

theorem parse_file_parsed (hidna : idna.IsStable) (hbase : ∀ b, base = some b → b.IsParsed idna)
    (h : parseFile idna base input = some url) : url.IsParsed idna := by
  have hfiles : ∀ b, (base.filter fun base => base.scheme = "file".toList) = some b →
      b.IsParsed idna ∧ b.scheme = "file".toList := by
    intro b hb
    obtain ⟨hsome, hfile⟩ := Option.filter_eq_some_iff.mp hb
    exact ⟨hbase b hsome, of_decide_eq_true hfile⟩
  unfold parseFile at h
  dsimp only at h
  split at h
  · exact parse_file_slash_parsed hidna hfiles h
  · split at h
    · obtain rfl := Option.some.inj h
      exact parse_path_parsed (Url.IsFront.file (Or.inr rfl)) no_segments _
    · rename_i b hb _
      obtain rfl := Option.some.inj h
      exact (hfiles b hb).1.withQuery b.query none
    · rename_i b c rest hb _
      have hparsed := (hfiles b hb).1
      split at h
      · obtain rfl := Option.some.inj h
        exact parse_query_parsed (hparsed.withQuery none none) _
      · split at h
        · obtain rfl := Option.some.inj h
          exact hparsed.withQuery b.query _
        · obtain rfl := Option.some.inj h
          refine parse_path_parsed (hparsed.withQuery none none).front ?_ _
          split
          · exact no_segments
          · exact shorten_path_segments hparsed.path_segments

theorem parse_relative_slash_parsed (hidna : idna.IsStable) {base : Url}
    (hbase : base.IsParsed idna) (hfile : base.scheme ≠ "file".toList)
    (h : parseRelativeSlash idna base input = some url) : url.IsParsed idna := by
  unfold parseRelativeSlash at h
  split at h
  · obtain rfl := Option.some.inj h
    exact parse_path_parsed (hbase.withQuery none none).front no_segments _
  · split at h
    · exact parse_authority_parsed hidna hbase.front.scheme hfile h
    · split at h
      · exact parse_authority_parsed hidna hbase.front.scheme hfile h
      · obtain rfl := Option.some.inj h
        exact parse_path_parsed (hbase.withQuery none none).front no_segments _

theorem parse_relative_parsed (hidna : idna.IsStable) {base : Url} (hbase : base.IsParsed idna)
    (hfile : base.scheme ≠ "file".toList) (h : parseRelative idna base input = some url) :
    url.IsParsed idna := by
  unfold parseRelative at h
  split at h
  · obtain rfl := Option.some.inj h
    exact hbase.withQuery base.query none
  · split at h
    · exact parse_relative_slash_parsed hidna hbase hfile h
    · split at h
      · obtain rfl := Option.some.inj h
        exact parse_query_parsed (hbase.withQuery none none) _
      · split at h
        · obtain rfl := Option.some.inj h
          exact hbase.withQuery base.query _
        · obtain rfl := Option.some.inj h
          exact parse_path_parsed (hbase.withQuery none none).front
            (shorten_path_segments hbase.path_segments) _

/-! ## The parser -/

theorem parse_after_scheme_parsed (hidna : idna.IsStable)
    (hbase : ∀ b, base = some b → b.IsParsed idna) {scheme : ScalarString}
    (hscheme : IsScheme scheme) (h : parseAfterScheme idna base scheme input = some url) :
    url.IsParsed idna := by
  unfold parseAfterScheme at h
  split at h
  · exact parse_file_parsed hidna hbase h
  · rename_i hfile
    split at h
    · split at h
      · rename_i same hsame
        obtain ⟨hsome, hequal⟩ := Option.filter_eq_some_iff.mp hsame
        have hsameScheme : same.scheme = scheme := of_decide_eq_true hequal
        split at h
        · exact parse_authority_parsed hidna hscheme hfile h
        · exact parse_relative_parsed hidna (hbase same hsome) (hsameScheme ▸ hfile) h
      · exact parse_authority_parsed hidna hscheme hfile h
    · rename_i hspecial
      have hfront := @Url.IsFront.of_scheme idna scheme hscheme (by simpa using hspecial)
      split at h
      · exact parse_authority_parsed hidna hscheme hfile h
      · obtain rfl := Option.some.inj h
        exact parse_path_parsed hfront no_segments _
      · rename_i hslashes hslash
        obtain rfl := Option.some.inj h
        refine parse_flat_path_parsed hfront rfl fun hhead => ?_
        obtain ⟨rest, hrest⟩ := List.head?_eq_some_iff.mp hhead
        exact hslash rest hrest

theorem parse_no_scheme_parsed (hidna : idna.IsStable)
    (hbase : ∀ b, base = some b → b.IsParsed idna) (h : parseNoScheme idna base input = some url) :
    url.IsParsed idna := by
  cases base with
  | none => cases h
  | some base =>
      have hbase := hbase base rfl
      unfold parseNoScheme at h
      dsimp only at h
      split at h
      · split at h
        · obtain rfl := Option.some.inj h
          exact hbase.withQuery base.query _
        · cases h
      · split at h
        · exact parse_file_parsed hidna (fun b hb => Option.some.inj hb ▸ hbase) h
        · rename_i hfile
          exact parse_relative_parsed hidna hbase hfile h

/-- What is parsed, alone or against a parsed base, is a parsed URL. -/
theorem parse_url_parsed (hidna : idna.IsStable) (hbase : ∀ b, base = some b → b.IsParsed idna)
    (h : parseUrl idna base input = some url) : url.IsParsed idna := by
  unfold parseUrl at h
  dsimp only at h
  split at h
  · rename_i hsplit
    exact parse_after_scheme_parsed hidna hbase (split_scheme_some hsplit) h
  · exact parse_no_scheme_parsed hidna hbase h

end Web
