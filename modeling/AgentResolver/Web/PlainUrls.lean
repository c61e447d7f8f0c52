import AgentResolver.Web.HostNames
import AgentResolver.Web.HttpUrls

/-!
# URLs with a plain authority

A URL that consists of a scheme, a lower-case host and a path is parsed by parsing its host:
`parse_plain_url`. There is no login and no port in it.
-/

namespace Web

variable {idna : Idna}

/-- A record with a scheme and a host. -/
def Url.ofHost (scheme : ScalarString) (host : Host) : Url :=
  { Url.ofScheme scheme with host := some host }

theorem split_credentials_plain {s : ScalarString} (h : '@' ∉ s) :
    splitCredentials s = (none, s) := by
  have hsplit : s.splitOn '@' = [s] := by
    rw [List.splitOn_eq_splitOnP, List.splitOnP_eq_singleton]
    intro c hc
    simp only [beq_eq_false_iff_ne]
    rintro rfl
    exact h hc
  rw [splitCredentials, hsplit]
  rfl

/-- No port starts in a text without brackets, and without colons unless it stands in brackets. -/
theorem split_port_append {inBrackets : Bool} {s : ScalarString}
    (h : ∀ c ∈ s, (inBrackets = false → c ≠ ':') ∧ c ≠ '[' ∧ c ≠ ']') (rest : ScalarString) :
    splitPort inBrackets (s ++ rest) =
      (s ++ (splitPort inBrackets rest).1, (splitPort inBrackets rest).2) := by
  induction s with
  | nil => rfl
  | cons c s ih =>
      obtain ⟨hcolon, hopen, hclose⟩ := h c (by simp)
      have hs := ih fun d hd => h d (List.mem_cons_of_mem _ hd)
      have hguard : (c = ':' && !inBrackets) = false := by
        cases inBrackets <;> simp_all
      simp [splitPort, hguard, hopen, hclose, hs]

theorem split_port_plain {s : ScalarString} (h : ∀ c ∈ s, c ≠ ':' ∧ c ≠ '[' ∧ c ≠ ']') :
    splitPort false s = (s, none) := by
  have hsplit := @split_port_append false s (fun c hc => ⟨fun _ => (h c hc).1, (h c hc).2⟩) []
  rwa [List.append_nil, show splitPort false [] = ([], none) from rfl, List.append_nil] at hsplit

theorem domain_char_not_slash {c : Char} (h : isDomainChar c) : isSlash true c = false := by
  have hslash : c ≠ '/' := domain_char_ne h (by decide)
  have hbackslash : c ≠ Char.ofNat 0x5C := domain_char_ne h (by decide)
  rw [isSlash, Bool.true_and, Bool.or_eq_false_iff, beq_eq_false_iff_ne, beq_eq_false_iff_ne]
  exact ⟨hslash, hbackslash⟩

/-- A plain host is read up to the path. -/
theorem parse_authority_plain {scheme host rest : ScalarString} (hscheme : scheme ∈ httpSchemes)
    (hhost : IsLowerDomain host) (hrest : rest = [] ∨ ∃ tail, rest = '/' :: tail) :
    parseAuthority idna (.ofScheme scheme) (host ++ rest) =
      (parseHost idna true host).map fun parsed =>
        parsePathStart (.ofHost scheme parsed) rest := by
  have hspecial : (Url.ofScheme scheme).isSpecial = true := http_is_special hscheme
  have hne {c : Char} (hc : c ∈ host) (d : Char) (hd : isForbiddenDomainCodePoint d = true) :
      c ≠ d := domain_char_ne (hhost.chars c hc) hd
  have hkept : ∀ c ∈ host, (!(isSlash true c || c == '?' || c == '#')) = true := by
    intro c hc
    have hmark : c ≠ '?' := hne hc '?' (by decide)
    have hhash : c ≠ '#' := hne hc '#' (by decide)
    simp [domain_char_not_slash (hhost.chars c hc), hmark, hhash]
  have htake : (host ++ rest).takeWhile (fun c => !(isSlash true c || c == '?' || c == '#')) =
      host := by
    rw [List.takeWhile_append_of_pos hkept]
    rcases hrest with rfl | ⟨tail, rfl⟩
    · exact List.append_nil host
    · exact List.append_nil host
  have hdrop : (host ++ rest).dropWhile (fun c => !(isSlash true c || c == '?' || c == '#')) =
      rest := by
    rw [List.dropWhile_append_of_pos hkept]
    rcases hrest with rfl | ⟨tail, rfl⟩
    · rfl
    · rfl
  have hlogin : '@' ∉ host := fun hmem => hne hmem '@' (by decide) rfl
  have hport : ∀ c ∈ host, c ≠ ':' ∧ c ≠ '[' ∧ c ≠ ']' := fun c hc =>
    ⟨hne hc ':' (by decide), hne hc '[' (by decide), hne hc ']' (by decide)⟩
  have hnonempty : host.isEmpty = false := by simpa using hhost.ne_nil
  unfold parseAuthority
  simp only [hspecial, htake, hdrop, split_credentials_plain hlogin, split_port_plain hport,
    hnonempty, Option.isSome_none, Bool.false_and, Bool.false_eq_true, if_false]
  cases parseHost idna true host with
  | none => rfl
  | some parsed => rfl

/-- A URL with a plain host is parsed by parsing the host. -/
theorem parse_plain_url {scheme host rest : ScalarString} (hscheme : scheme ∈ httpSchemes)
    (hhost : IsLowerDomain host) (hrest : rest = [] ∨ ∃ tail, rest = '/' :: tail)
    (hvisible : ∀ c ∈ rest, isC0Control c = false ∧ c ≠ ' ') :
    parseUrl idna none (scheme ++ "://".toList ++ host ++ rest) =
      (parseHost idna true host).map fun parsed =>
        parsePathStart (.ofHost scheme parsed) rest := by
  have htail : ∀ c ∈ "//".toList ++ (host ++ rest), isC0Control c = false ∧ c ≠ ' ' := by
    intro c hc
    rcases List.mem_append.mp hc with hc | hc
    · exact (by decide : ∀ c ∈ "//".toList, isC0Control c = false ∧ c ≠ ' ') c hc
    · rcases List.mem_append.mp hc with hc | hc
      · exact ⟨(domain_char_facts (hhost.chars c hc)).2.2,
          domain_char_ne (hhost.chars c hc) (by decide)⟩
      · exact hvisible c hc
  have hslashes : ("//".toList ++ (host ++ rest)).dropWhile (isSlash true) = host ++ rest := by
    cases host with
    | nil => exact absurd rfl hhost.ne_nil
    | cons c host =>
        have hc := domain_char_not_slash (hhost.chars c (by simp))
        show (c :: (host ++ rest)).dropWhile (isSlash true) = _
        exact List.dropWhile_cons_of_neg (by simp [hc])
  have htext : scheme ++ "://".toList ++ host ++ rest =
      scheme ++ ':' :: ("//".toList ++ (host ++ rest)) := by
    simp
  rw [htext, parse_http_text hscheme, strip_tail_visible htail, hslashes,
    parse_authority_plain hscheme hhost hrest]

end Web
