import AgentResolver.Web.Ipv6Text
import AgentResolver.Web.PlainUrls

/-!
# Parsed hosts

`IsParsedHost` says what the host parser returns. The text of such a host is parsed as the same host
(`IsParsedHost.again`), and it can be told from the login, the port and the path around it
(`IsParsedHost.host_text`). What ToASCII does with its own answers enters through `Idna.IsStable`.
-/

namespace Web

/-- ToASCII answers in ASCII without capitals, and applying it again changes nothing. -/
structure Idna.IsStable (idna : Idna) : Prop where
  ascii : ∀ domain ascii, idna domain = some ascii →
    ∀ c ∈ ascii, isAsciiChar c ∧ asciiLowerChar c = c
  again : ∀ domain ascii, idna domain = some ascii → idna ascii = some ascii

variable {idna : Idna} {special : Bool} {s : ScalarString} {host : Host}

/-! ## Domains -/

theorem ascii_lower_char {c : Char} (h : isAsciiChar c) : isAsciiChar (asciiLowerChar c) := by
  have hall : ∀ n < 0x80, isAsciiChar (asciiLowerChar (Char.ofNat n)) = true := by decide
  exact @ascii_char_induction (fun c => isAsciiChar (asciiLowerChar c) = true) hall c h

/-- Lower case is kept, and dots are neither made nor lost. -/
theorem lower_char_again (c : Char) :
    asciiLowerChar (asciiLowerChar c) = asciiLowerChar c ∧
      (asciiLowerChar c == '.') = (c == '.') := by
  by_cases hcapital : 'A' ≤ c ∧ c ≤ 'Z'
  · have hsmall : isAsciiChar c := by
      have hle := UInt32.le_iff_toNat_le.mp (Char.le_def.mp hcapital.2)
      exact decide_eq_true (Nat.lt_of_le_of_lt hle (by decide))
    have hall : ∀ n < 0x80,
        asciiLowerChar (asciiLowerChar (Char.ofNat n)) = asciiLowerChar (Char.ofNat n) ∧
          (asciiLowerChar (Char.ofNat n) == '.') = (Char.ofNat n == '.') := by
      decide
    exact @ascii_char_induction (fun c => asciiLowerChar (asciiLowerChar c) = asciiLowerChar c ∧
      (asciiLowerChar c == '.') = (c == '.')) hall c hsmall
  · have hkept : asciiLowerChar c = c := if_neg hcapital
    rw [hkept, hkept]
    exact ⟨rfl, rfl⟩

/-- A map that keeps the separators apart from the rest maps the parts. -/
theorem split_on_map {α β : Type} [BEq α] [BEq β] {f : α → β} {a : α} {b : β} {xs : List α}
    (h : ∀ x ∈ xs, (f x == b) = (x == a)) :
    (xs.map f).splitOn b = (xs.splitOn a).map (List.map f) := by
  induction xs with
  | nil => rfl
  | cons x rest ih =>
      have hrest := ih fun y hy => h y (List.mem_cons_of_mem _ hy)
      rw [List.map_cons, List.splitOn_cons_eq_if_modifyHead, List.splitOn_cons_eq_if_modifyHead,
        h x (by simp), hrest]
      split
      · rfl
      · cases rest.splitOn a with
        | nil => rfl
        | cons part parts => rfl

/-- The case of a text does not matter to whether it has a label that starts with `xn--`. -/
theorem has_punycode_label_lower (s : ScalarString) :
    hasPunycodeLabel (s.map asciiLowerChar) = hasPunycodeLabel s := by
  rw [hasPunycodeLabel, hasPunycodeLabel,
    @split_on_map _ _ _ _ asciiLowerChar '.' '.' s fun c _ => (lower_char_again c).2, List.any_map]
  refine List.any_congr rfl fun label => ?_
  have htwice : asciiLowerChar ∘ asciiLowerChar = asciiLowerChar :=
    funext fun c => (lower_char_again c).1
  show (((label.map asciiLowerChar).take 4).map asciiLowerChar == "xn--".toList) = _
  rw [← List.map_take, List.map_map, htwice]

/-- What domain to ASCII returns is a domain that it keeps. -/
theorem domain_to_ascii_again (hidna : idna.IsStable) {ascii : ScalarString}
    (h : domainToAscii idna s = some ascii) :
    IsAsciiDomain ascii ∧ domainToAscii idna ascii = some ascii := by
  obtain ⟨hresult, hne, hallowed⟩ := allowed_domain_eq h
  split at hresult
  · rename_i hplain
    rw [Bool.and_eq_true, List.all_eq_true, Bool.not_eq_true'] at hplain
    obtain rfl := Option.some.inj hresult
    have hdomain : IsAsciiDomain (s.map asciiLowerChar) := by
      refine ⟨hne, fun c hc => ?_, hallowed⟩
      obtain ⟨source, hsource, rfl⟩ := List.mem_map.mp hc
      exact ⟨ascii_lower_char (hplain.1 source hsource), (lower_char_again source).1⟩
    refine ⟨hdomain, hdomain.domain_to_ascii fun hpunycode => ?_⟩
    rw [has_punycode_label_lower, hplain.2] at hpunycode
    cases hpunycode
  · have hdomain : IsAsciiDomain ascii := ⟨hne, hidna.ascii s ascii hresult, hallowed⟩
    exact ⟨hdomain, hdomain.domain_to_ascii fun _ => hidna.again s ascii hresult⟩

/-! ## Reading the text of a host -/

/-- The hosts that the parser returns for a special or another scheme. -/
inductive IsParsedHost (idna : Idna) : Bool → Host → Prop where
  | ipv6 (special pieces) : IsIpv6 pieces → IsParsedHost idna special (.ipv6 pieces)
  | nonSpecial (name) :
      (∀ c ∈ name, isForbiddenHostCodePoint c = false ∧ inC0ControlSet c = false) →
      IsParsedHost idna false (.nonSpecial name)
  | ipv4 (address) : address < 256 ^ 4 → IsParsedHost idna true (.ipv4 address)
  | domain (name) :
      IsAsciiDomain name → domainToAscii idna name = some name → endsInNumber name = false →
      IsParsedHost idna true (.domain name)

theorem parse_host_parsed (hidna : idna.IsStable) (h : parseHost idna special s = some host) :
    IsParsedHost idna special host := by
  unfold parseHost at h
  split at h
  · split at h
    · obtain ⟨pieces, hpieces, rfl⟩ := Option.map_eq_some_iff.mp h
      exact .ipv6 special pieces (parse_ipv6_is_ipv6 hpieces)
    · cases h
  · split at h
    · rename_i hspecial
      obtain rfl : special = false := by simpa using hspecial
      split at h
      · cases h
      · rename_i hallowed
        obtain rfl := Option.some.inj h
        refine .nonSpecial _ (percent_encode_forall (fun c hc hkept => ⟨?_, hkept⟩) (by decide))
        by_contra hforbidden
        exact hallowed (List.any_eq_true.mpr ⟨c, hc, by simpa using hforbidden⟩)
    · rename_i hspecial
      obtain rfl : special = true := by simpa using hspecial
      split at h
      · cases h
      · rename_i ascii hascii
        obtain ⟨hdomain, hkept⟩ := domain_to_ascii_again hidna hascii
        split at h
        · obtain ⟨address, haddress, rfl⟩ := Option.map_eq_some_iff.mp h
          exact .ipv4 address (parse_ipv4_lt haddress)
        · rename_i hnumber
          obtain rfl := Option.some.inj h
          exact .domain ascii hdomain hkept (by simpa using hnumber)

/-- The text of a parsed host is parsed as the same host. -/
theorem IsParsedHost.again (h : IsParsedHost idna special host) :
    parseHost idna special (serializeHost host) = some host := by
  cases h with
  | ipv6 special pieces hpieces =>
      have hlast : ('[' :: serializeIpv6 pieces ++ [']']).getLast? = some ']' :=
        List.getLast?_concat
      have hinner : (('[' :: serializeIpv6 pieces ++ [']']).drop 1).dropLast =
          serializeIpv6 pieces := List.dropLast_concat
      show parseHost idna special ('[' :: serializeIpv6 pieces ++ [']']) = _
      rw [parseHost, if_pos (by rfl), if_pos hlast, hinner, parse_serialize_ipv6 hpieces]
      rfl
  | nonSpecial name hname =>
      have hbracket : name.head? ≠ some '[' := by
        intro hhead
        cases (hname '[' (List.mem_of_head? hhead)).1
      have hallowed : name.any isForbiddenHostCodePoint = false := by
        rw [List.any_eq_false]
        intro c hc
        simp [(hname c hc).1]
      show parseHost idna false name = _
      rw [parseHost, if_neg hbracket, if_pos (by rfl), hallowed,
        percent_encode_eq_self fun c hc => (hname c hc).2]
      rfl
  | ipv4 address haddress => exact parse_host_ipv4 haddress
  | domain name hdomain hkept hnumber =>
      show parseHost idna true name = _
      rw [hdomain.parse_host_eq, hkept, Option.bind_some, hnumber]
      rfl

/-- Only the empty host of a scheme that is not special has an empty text. -/
theorem IsParsedHost.empty (h : IsParsedHost idna special host) (hempty : serializeHost host = []) :
    special = false ∧ host = .nonSpecial [] := by
  cases h with
  | ipv6 special pieces hpieces => cases hempty
  | ipv4 address haddress => exact absurd hempty (serialize_ipv4_lower address).ne_nil
  | domain name hdomain hkept hnumber => exact absurd hempty hdomain.ne_nil
  | nonSpecial name hname => exact ⟨rfl, congrArg Host.nonSpecial hempty⟩

/-- It is only parsed from the empty text. -/
theorem parse_host_empty (hspecial : special = false)
    (h : parseHost idna special s = some (.nonSpecial [])) : s = [] := by
  unfold parseHost at h
  split at h
  · split at h
    · obtain ⟨pieces, -, hhost⟩ := Option.map_eq_some_iff.mp h
      cases hhost
    · cases h
  · rw [if_pos (by simp [hspecial])] at h
    split at h
    · cases h
    · exact percent_encode_eq_nil (Host.nonSpecial.inj (Option.some.inj h))

/-! ## Telling the host from its surroundings -/

/-- A character that neither ends an authority nor is stripped from the input. -/
def inAuthorityText (c : Char) : Bool :=
  !(isC0Control c || c == ' ' || c == '/' || c == '\\' || c == '?' || c == '#')

theorem authority_char_facts {c : Char} (h : inAuthorityText c) :
    isC0Control c = false ∧ c ≠ ' ' ∧ c ≠ '?' ∧ c ≠ '#' ∧ ∀ special, isSlash special c = false := by
  simp only [inAuthorityText, Bool.not_eq_true', Bool.or_eq_false_iff, beq_eq_false_iff_ne] at h
  obtain ⟨⟨⟨⟨⟨hcontrol, hspace⟩, hslash⟩, hbackslash⟩, hquery⟩, hfragment⟩ := h
  exact ⟨hcontrol, hspace, hquery, hfragment, fun special => by simp [isSlash, hslash, hbackslash]⟩

/-- A text that is read as one host wherever an authority has it. -/
structure IsHostText (text : ScalarString) : Prop where
  chars : ∀ c ∈ text, inAuthorityText c ∧ c ≠ '@'
  port : ∀ rest, splitPort false (text ++ rest) =
    (text ++ (splitPort false rest).1, (splitPort false rest).2)

/-- The characters that hosts may have, but for the ASCII controls, which opaque hosts encode. -/
theorem allowed_char {c : Char} (hallowed : isForbiddenHostCodePoint c = false)
    (hcontrol : isC0Control c = false) :
    (inAuthorityText c ∧ c ≠ '@') ∧ c ≠ ':' ∧ c ≠ '[' ∧ c ≠ ']' := by
  simp only [isForbiddenHostCodePoint, Bool.or_eq_false_iff, beq_eq_false_iff_ne] at hallowed
  simp [inAuthorityText, hcontrol, hallowed]

theorem allowed_domain_char {c : Char} (h : isForbiddenDomainCodePoint c = false) :
    isForbiddenHostCodePoint c = false ∧ isC0Control c = false := by
  simp only [isForbiddenDomainCodePoint, Bool.or_eq_false_iff] at h
  exact h.1.1

/-- Letters, digits and hyphens are kept apart from everything around a host. -/
theorem domain_char_apart {c : Char} (h : isDomainChar c) :
    (inAuthorityText c ∧ c ≠ '@') ∧ c ≠ ':' ∧ c ≠ '[' ∧ c ≠ ']' := by
  obtain ⟨hallowed, hcontrol⟩ := allowed_domain_char (domain_char_facts h).2.1
  exact allowed_char hallowed hcontrol

/-- A text of such characters is a host text. -/
theorem host_text_allowed
    (h : ∀ c ∈ s, isForbiddenHostCodePoint c = false ∧ isC0Control c = false) : IsHostText s where
  chars c hc := (allowed_char (h c hc).1 (h c hc).2).1
  port rest := split_port_append (fun c hc =>
    ⟨fun _ => (allowed_char (h c hc).1 (h c hc).2).2.1, (allowed_char (h c hc).1 (h c hc).2).2.2⟩)
    rest

theorem IsAsciiDomain.host_text (h : IsAsciiDomain s) : IsHostText s :=
  host_text_allowed fun c hc => allowed_domain_char (h.allowed c hc)

/-- The characters of the text of an IPv6 address. -/
theorem mem_serialize_ipv6 {pieces : List Nat} {c : Char} (h : c ∈ serializeIpv6 pieces) :
    c = ':' ∨ ∃ n, c ∈ Nat.toDigits 16 n := by
  unfold serializeIpv6 at h
  dsimp only at h
  split at h
  · exact mem_hex_text h
  · rw [List.mem_append, List.mem_append] at h
    rcases h with (h | h) | h
    · exact mem_hex_text h
    · exact Or.inl ((by decide : ∀ c ∈ "::".toList, c = ':') c h)
    · exact mem_hex_text h

theorem host_text_ipv6 (pieces : List Nat) : IsHostText ('[' :: serializeIpv6 pieces ++ [']']) := by
  have hchars : ∀ c ∈ serializeIpv6 pieces, (inAuthorityText c ∧ c ≠ '@') ∧ c ≠ '[' ∧ c ≠ ']' := by
    intro c hc
    rcases mem_serialize_ipv6 hc with rfl | ⟨n, hn⟩
    · decide
    · obtain ⟨hauthority, -, hbrackets⟩ := domain_char_apart (hex_is_domain_char hn).1
      exact ⟨hauthority, hbrackets⟩
  constructor
  · intro c hc
    rw [List.mem_append, List.mem_cons, List.mem_singleton] at hc
    rcases hc with (rfl | hc) | rfl
    · decide
    · exact (hchars c hc).1
    · decide
  · intro rest
    have hinner := @split_port_append true (serializeIpv6 pieces)
      (fun c hc => ⟨fun h => absurd h (by decide), (hchars c hc).2⟩) (']' :: rest)
    have htext : '[' :: serializeIpv6 pieces ++ [']'] ++ rest =
        '[' :: (serializeIpv6 pieces ++ ']' :: rest) := by
      simp
    rw [htext]
    simp [splitPort, hinner]

/-- The text of a parsed host is a host text. -/
theorem IsParsedHost.host_text (h : IsParsedHost idna special host) :
    IsHostText (serializeHost host) := by
  cases h with
  | ipv6 special pieces hpieces => exact host_text_ipv6 pieces
  | ipv4 address haddress => exact (serialize_ipv4_lower address).ascii_domain.host_text
  | domain name hdomain hkept hnumber => exact hdomain.host_text
  | nonSpecial name hname =>
      refine host_text_allowed fun c hc => ⟨(hname c hc).1, ?_⟩
      have hkept := (hname c hc).2
      rw [inC0ControlSet, Bool.or_eq_false_iff] at hkept
      exact hkept.1

end Web
