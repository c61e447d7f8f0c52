import AgentResolver.Web.Host
import Mathlib.Tactic.Ring
import Mathlib.Tactic.NormNum

/-!
# Hosts written in lower case

A host text of lower-case letters, digits, hyphens and dots is either kept as a domain, or read as
an IPv4 address when it ends in a number (`parse_host_lower`). Reading the text of the result
again changes nothing (`parse_host_serialize`). What ToASCII does with labels that start with
`xn--` enters through `Idna.KeepsAscii`.
-/

namespace Web

/-- Lower-case letters, digits, the hyphen and the dot. -/
def isDomainChar (c : Char) : Bool := ('a' ≤ c && c ≤ 'z') || isDigit c || c == '-' || c == '.'

/-- A nonempty text of such characters. -/
structure IsLowerDomain (s : ScalarString) : Prop where
  ne_nil : s ≠ []
  chars : ∀ c ∈ s, isDomainChar c

/-- What domain to ASCII lets through: nonempty ASCII text without capitals and without characters
that no domain may have. -/
structure IsAsciiDomain (s : ScalarString) : Prop where
  ne_nil : s ≠ []
  ascii : ∀ c ∈ s, isAsciiChar c ∧ asciiLowerChar c = c
  allowed : ∀ c ∈ s, isForbiddenDomainCodePoint c = false

/-- ToASCII validates domains that are ASCII and lower case already, and does not change them. -/
def Idna.KeepsAscii (idna : Idna) : Prop :=
  ∀ domain ascii, (∀ c ∈ domain, isAsciiChar c ∧ asciiLowerChar c = c) →
    idna domain = some ascii → ascii = domain

/-! ## Characters -/

/-- A property of ASCII characters is checked on each of them. -/
theorem ascii_char_induction {p : Char → Prop} (h : ∀ n < 0x80, p (Char.ofNat n)) {c : Char}
    (hc : isAsciiChar c) : p c := by
  have hsmall : c.toNat < 0x80 := by simpa [isAsciiChar] using hc
  have hp := h c.toNat hsmall
  rwa [Char.ofNat_toNat] at hp

theorem domain_char_ascii {c : Char} (h : isDomainChar c) : isAsciiChar c := by
  simp only [isDomainChar, isDigit, Bool.or_eq_true, Bool.and_eq_true, decide_eq_true_eq,
    beq_iff_eq, Char.le_def, UInt32.le_iff_toNat_le] at h
  simp only [isAsciiChar, decide_eq_true_eq]
  rcases h with ((⟨-, h⟩ | ⟨-, h⟩) | rfl) | rfl
  · exact Nat.lt_of_le_of_lt h (by decide)
  · exact Nat.lt_of_le_of_lt h (by decide)
  · decide
  · decide

/-- What the parser asks about the characters of a host. -/
theorem domain_char_facts {c : Char} (h : isDomainChar c) :
    asciiLowerChar c = c ∧ isForbiddenDomainCodePoint c = false ∧ isC0Control c = false := by
  have hall : ∀ n < 0x80, isDomainChar (Char.ofNat n) →
      asciiLowerChar (Char.ofNat n) = Char.ofNat n ∧
        isForbiddenDomainCodePoint (Char.ofNat n) = false ∧
        isC0Control (Char.ofNat n) = false := by
    decide
  exact @ascii_char_induction (fun c => isDomainChar c → asciiLowerChar c = c ∧
    isForbiddenDomainCodePoint c = false ∧ isC0Control c = false) hall c (domain_char_ascii h) h

/-- A character that no domain may have does not stand in a lower-case domain. -/
theorem domain_char_ne {c d : Char} (h : isDomainChar c)
    (hd : isForbiddenDomainCodePoint d = true) : c ≠ d := by
  rintro rfl
  rw [(domain_char_facts h).2.1] at hd
  cases hd

/-- A domain that is let through is what ToASCII returned. -/
theorem allowed_domain_eq {result : Option ScalarString} {ascii : ScalarString}
    (h : (match result with
      | none => none
      | some ascii =>
          if ascii.isEmpty || ascii.any isForbiddenDomainCodePoint then none
          else some ascii) = some ascii) :
    result = some ascii ∧ ascii ≠ [] ∧ ∀ c ∈ ascii, isForbiddenDomainCodePoint c = false := by
  cases result with
  | none => cases h
  | some result =>
      dsimp only at h
      split at h
      · cases h
      · rename_i hallowed
        obtain rfl := Option.some.inj h
        rw [Bool.or_eq_true, not_or, List.isEmpty_iff, List.any_eq_true] at hallowed
        refine ⟨rfl, hallowed.1, fun c hc => ?_⟩
        by_contra hforbidden
        exact hallowed.2 ⟨c, hc, by simpa using hforbidden⟩

namespace IsAsciiDomain

variable {idna : Idna} {s : ScalarString}

theorem map_lower (h : IsAsciiDomain s) : s.map asciiLowerChar = s := by
  rw [List.map_congr_left fun c hc => (h.ascii c hc).2]
  exact List.map_id s

/-- Such a domain is let through when ToASCII keeps it, or is not asked. -/
theorem domain_to_ascii (h : IsAsciiDomain s) (hidna : hasPunycodeLabel s → idna s = some s) :
    domainToAscii idna s = some s := by
  have hascii : s.all isAsciiChar = true := List.all_eq_true.mpr fun c hc => (h.ascii c hc).1
  have hallowed : (s.isEmpty || s.any isForbiddenDomainCodePoint) = false := by
    rw [Bool.or_eq_false_iff, List.any_eq_false]
    refine ⟨by simpa using h.ne_nil, fun c hc => ?_⟩
    simp [h.allowed c hc]
  unfold domainToAscii
  cases hpunycode : hasPunycodeLabel s with
  | false =>
      simp only [hascii, h.map_lower, hallowed, Bool.not_false, Bool.and_true, if_true]
      rfl
  | true =>
      simp only [hidna hpunycode, hallowed, Bool.not_true, Bool.and_false, Bool.false_eq_true,
        if_false]

/-- There is nothing to decode in it. -/
theorem decode_percent (h : IsAsciiDomain s) : decode (percentDecode (encode s)) = s := by
  have hascii : ∀ c ∈ s, isAsciiChar c := fun c hc => (h.ascii c hc).1
  rw [percent_decode_eq_self, decode_encode_ascii hascii]
  intro byte hbyte
  obtain ⟨c, hc, hmem⟩ := List.mem_flatMap.mp hbyte
  rw [encode_ascii_char (hascii c hc), List.mem_singleton] at hmem
  rintro rfl
  have hsmall : c.toNat < 0x80 := by simpa [isAsciiChar] using hascii c hc
  have hvalue : c.toNat = 0x25 := by
    have hnat := congrArg UInt8.toNat hmem
    simp only [UInt8.reduceToNat, UInt8.toNat_ofNat'] at hnat
    omega
  have hpercent : c = '%' := by
    rw [← Char.ofNat_toNat c, hvalue]
  have hallowed := h.allowed c hc
  rw [hpercent] at hallowed
  cases hallowed

/-- It is parsed as an IPv4 address when it ends in a number, and as a domain otherwise. -/
theorem parse_host_eq (h : IsAsciiDomain s) :
    parseHost idna true s =
      (domainToAscii idna s).bind fun ascii =>
        if endsInNumber ascii then (parseIpv4 ascii).map .ipv4 else some (.domain ascii) := by
  have hbracket : s.head? ≠ some '[' := by
    intro hhead
    have hallowed := h.allowed '[' (List.mem_of_head? hhead)
    cases hallowed
  rw [parseHost, if_neg hbracket, h.decode_percent]
  cases domainToAscii idna s with
  | none => rfl
  | some ascii => rfl

end IsAsciiDomain

namespace IsLowerDomain

variable {idna : Idna} {s : ScalarString}

theorem ascii_domain (h : IsLowerDomain s) : IsAsciiDomain s where
  ne_nil := h.ne_nil
  ascii c hc := ⟨domain_char_ascii (h.chars c hc), (domain_char_facts (h.chars c hc)).1⟩
  allowed c hc := (domain_char_facts (h.chars c hc)).2.1

/-- Domain to ASCII keeps a lower-case domain or rejects it. -/
theorem domain_to_ascii (h : IsLowerDomain s) (hidna : idna.KeepsAscii) {ascii : ScalarString}
    (hascii : domainToAscii idna s = some ascii) : ascii = s := by
  obtain ⟨hresult, -⟩ := allowed_domain_eq hascii
  split at hresult
  · rw [h.ascii_domain.map_lower] at hresult
    exact (Option.some.inj hresult).symm
  · exact hidna s ascii h.ascii_domain.ascii hresult

end IsLowerDomain

/-! ## IPv4 addresses -/

/-- The four bytes of an address. -/
def ipv4Bytes (address : Nat) : List Nat :=
  [address / 256 ^ 3 % 256, address / 256 ^ 2 % 256, address / 256 % 256, address % 256]

theorem ipv4_bytes_lt {address byte : Nat} (h : byte ∈ ipv4Bytes address) : byte < 256 := by
  simp only [ipv4Bytes, List.mem_cons, List.not_mem_nil, or_false] at h
  rcases h with rfl | rfl | rfl | rfl <;> exact Nat.mod_lt _ (by decide)

/-- The decimal text of a byte. -/
theorem byte_text {byte : Nat} (h : byte < 256) :
    (Nat.toDigits 10 byte).all isDigit ∧ Nat.toDigits 10 byte ≠ [] ∧
      parseIpv4Number (Nat.toDigits 10 byte) = some byte := by
  have hall : ∀ byte < 256, (Nat.toDigits 10 byte).all isDigit ∧ Nat.toDigits 10 byte ≠ [] ∧
      parseIpv4Number (Nat.toDigits 10 byte) = some byte := by
    decide +kernel
  exact hall byte h

theorem digit_facts {c : Char} (h : isDigit c) : isDomainChar c ∧ c ≠ '.' ∧ c ≠ 'x' := by
  refine ⟨by simp [isDomainChar, h], ?_, ?_⟩
  · rintro rfl
    cases h
  · rintro rfl
    cases h

theorem serialize_ipv4_eq (address : Nat) :
    serializeIpv4 address = ['.'].intercalate ((ipv4Bytes address).map (Nat.toDigits 10)) := rfl

/-- The labels of the text of an address are the texts of its bytes. -/
theorem split_serialize_ipv4 (address : Nat) :
    (serializeIpv4 address).splitOn '.' = (ipv4Bytes address).map (Nat.toDigits 10) := by
  rw [serialize_ipv4_eq, List.splitOn_intercalate]
  · intro text htext hdot
    obtain ⟨byte, hbyte, rfl⟩ := List.mem_map.mp htext
    have hdigit := List.all_eq_true.mp (byte_text (ipv4_bytes_lt hbyte)).1 '.' hdot
    exact (digit_facts hdigit).2.1 rfl
  · simp [ipv4Bytes]

theorem serialize_ipv4_lower (address : Nat) : IsLowerDomain (serializeIpv4 address) := by
  have hbyte (byte : Nat) : ∀ c ∈ Nat.toDigits 10 (byte % 256), isDomainChar c := by
    intro c hc
    have hdigits := (byte_text (Nat.mod_lt byte (by decide : 0 < 256))).1
    exact (digit_facts (List.all_eq_true.mp hdigits c hc)).1
  have hdot : isDomainChar '.' := by decide
  constructor
  · simp [serialize_ipv4_eq, ipv4Bytes, List.intercalate, List.intersperse]
  · intro c hc
    simp only [serialize_ipv4_eq, ipv4Bytes, List.map_cons, List.map_nil, List.intercalate,
      List.intersperse, List.flatten_cons, List.flatten_nil, List.mem_append, List.mem_singleton,
      List.append_nil] at hc
    rcases hc with hc | rfl | hc | rfl | hc | rfl | hc
    · exact hbyte _ c hc
    · exact hdot
    · exact hbyte _ c hc
    · exact hdot
    · exact hbyte _ c hc
    · exact hdot
    · exact hbyte _ c hc

/-- The text of an address ends with a digit. -/
theorem serialize_ipv4_last {address : Nat} {c : Char}
    (h : (serializeIpv4 address).getLast? = some c) : isDigit c := by
  obtain ⟨hdigits, hne, -⟩ := byte_text (Nat.mod_lt address (by decide : 0 < 256))
  simp only [serialize_ipv4_eq, ipv4Bytes, List.map_cons, List.map_nil, List.intercalate,
    List.intersperse, List.flatten_cons, List.flatten_nil, List.append_nil,
    ← List.append_assoc] at h
  rw [List.getLast?_append_of_ne_nil _ hne] at h
  exact List.all_eq_true.mp hdigits c (List.mem_of_getLast? h)

/-- No byte is written with `xn--`. -/
theorem serialize_ipv4_plain (address : Nat) :
    hasPunycodeLabel (serializeIpv4 address) = false := by
  rw [hasPunycodeLabel, split_serialize_ipv4, List.any_eq_false]
  intro label hlabel
  obtain ⟨byte, hbyte, rfl⟩ := List.mem_map.mp hlabel
  obtain ⟨hdigits, hne, -⟩ := byte_text (ipv4_bytes_lt hbyte)
  cases htext : Nat.toDigits 10 byte with
  | nil => exact absurd htext hne
  | cons c rest =>
      rw [htext] at hdigits
      have hc := digit_facts (List.all_eq_true.mp hdigits c (by simp))
      intro hpunycode
      have hhead := congrArg List.head? (eq_of_beq hpunycode)
      simp only [List.take_succ_cons, List.map_cons, List.head?_cons,
        (domain_char_facts hc.1).1] at hhead
      exact hc.2.2 (Option.some.inj hhead)

theorem serialize_ipv4_parts (address : Nat) :
    ipv4Parts (serializeIpv4 address) = (ipv4Bytes address).map (Nat.toDigits 10) := by
  have hlast : Nat.toDigits 10 (address % 256) ≠ [] :=
    (byte_text (Nat.mod_lt address (by decide : 0 < 256))).2.1
  rw [ipv4Parts, split_serialize_ipv4]
  exact if_neg fun h => hlast (Option.some.inj h.2)

theorem serialize_ipv4_ends_in_number (address : Nat) :
    endsInNumber (serializeIpv4 address) = true := by
  obtain ⟨hdigits, hne, -⟩ := byte_text (Nat.mod_lt address (by decide : 0 < 256))
  rw [endsInNumber, serialize_ipv4_parts]
  show ((!(Nat.toDigits 10 (address % 256)).isEmpty &&
    (Nat.toDigits 10 (address % 256)).all isDigit) || _) = true
  rw [hdigits]
  simp [hne]

/-- The number of four bytes. -/
theorem ipv4_of_bytes {address : Nat} (h : address < 256 ^ 4) :
    ipv4OfNumbers (ipv4Bytes address) 4 = some address := by
  have hbyte (n : Nat) : ¬ n % 256 > 255 := by omega
  simp only [ipv4Bytes, ipv4OfNumbers, hbyte, if_false]
  norm_num
  omega

/-- The text of an address is parsed as the address. -/
theorem parse_serialize_ipv4 {address : Nat} (h : address < 256 ^ 4) :
    parseIpv4 (serializeIpv4 address) = some address := by
  have hnumber (byte : Nat) :
      parseIpv4Number (Nat.toDigits 10 (byte % 256)) = some (byte % 256) :=
    (byte_text (Nat.mod_lt byte (by decide : 0 < 256))).2.2
  have hnumbers : ((ipv4Bytes address).map (Nat.toDigits 10)).mapM parseIpv4Number =
      some (ipv4Bytes address) := by
    simp [ipv4Bytes, List.mapM_cons, hnumber]
  rw [parseIpv4, serialize_ipv4_parts, hnumbers, if_neg (by simp [ipv4Bytes])]
  exact ipv4_of_bytes h

/-- The numbers of an address fit into its bytes. -/
theorem ipv4_of_numbers_lt {numbers : List Nat} {remaining address : Nat}
    (hlength : numbers.length ≤ remaining) (h : ipv4OfNumbers numbers remaining = some address) :
    address < 256 ^ remaining := by
  induction numbers generalizing remaining address with
  | nil => cases h
  | cons number rest ih =>
      cases rest with
      | nil =>
          rw [ipv4OfNumbers] at h
          split at h
          · rename_i hsmall
            exact Option.some.inj h ▸ hsmall
          · cases h
      | cons next rest =>
          change (if number > 255 then none else (ipv4OfNumbers (next :: rest)
            (remaining - 1)).map fun low => number * 256 ^ (remaining - 1) + low) =
              some address at h
          split at h
          · cases h
          · rename_i hbyte
            obtain ⟨low, hlow, rfl⟩ := Option.map_eq_some_iff.mp h
            obtain ⟨rest', rfl⟩ : ∃ rest', remaining = rest' + 1 :=
              ⟨remaining - 1, by simp at hlength; omega⟩
            rw [Nat.add_sub_cancel] at hlow ⊢
            have hbound := ih (by simp at hlength ⊢; omega) hlow
            calc number * 256 ^ rest' + low < number * 256 ^ rest' + 256 ^ rest' := by omega
              _ = (number + 1) * 256 ^ rest' := by ring
              _ ≤ 256 * 256 ^ rest' := Nat.mul_le_mul_right _ (by omega)
              _ = 256 ^ (rest' + 1) := by ring

theorem map_m_length {α β : Type} {f : α → Option β} {xs : List α} {ys : List β}
    (h : xs.mapM f = some ys) : ys.length = xs.length := by
  induction xs generalizing ys with
  | nil =>
      obtain rfl : [] = ys := Option.some.inj h
      rfl
  | cons x rest ih =>
      rw [List.mapM_cons] at h
      obtain ⟨y, -, h⟩ := Option.bind_eq_some_iff.mp h
      obtain ⟨more, hmore, h⟩ := Option.bind_eq_some_iff.mp h
      obtain rfl : y :: more = ys := Option.some.inj h
      rw [List.length_cons, List.length_cons, ih hmore]

theorem parse_ipv4_lt {input : ScalarString} {address : Nat} (h : parseIpv4 input = some address) :
    address < 256 ^ 4 := by
  rw [parseIpv4] at h
  split at h
  · cases h
  · rename_i hlength
    split at h
    · cases h
    · rename_i numbers hnumbers
      refine ipv4_of_numbers_lt ?_ h
      rw [map_m_length hnumbers]
      omega

/-! ## Parsed hosts -/

section

variable {idna : Idna} {s : ScalarString} {host : Host}

/-- The text of an IPv4 address is parsed as the address, whatever ToASCII does. -/
theorem parse_host_ipv4 {address : Nat} (h : address < 256 ^ 4) :
    parseHost idna true (serializeIpv4 address) = some (.ipv4 address) := by
  have hdomain := (serialize_ipv4_lower address).ascii_domain
  have hplain : hasPunycodeLabel (serializeIpv4 address) →
      idna (serializeIpv4 address) = some (serializeIpv4 address) := by
    intro hpunycode
    rw [serialize_ipv4_plain address] at hpunycode
    cases hpunycode
  rw [hdomain.parse_host_eq, hdomain.domain_to_ascii hplain, Option.bind_some,
    if_pos (serialize_ipv4_ends_in_number address), parse_serialize_ipv4 h]
  rfl

/-- What a lower-case host text is parsed as. -/
theorem parse_host_lower (hs : IsLowerDomain s) (hidna : idna.KeepsAscii)
    (h : parseHost idna true s = some host) :
    domainToAscii idna s = some s ∧
      ((endsInNumber s = false ∧ host = .domain s) ∨
        (endsInNumber s = true ∧
          ∃ address, parseIpv4 s = some address ∧ host = .ipv4 address)) := by
  rw [hs.ascii_domain.parse_host_eq] at h
  obtain ⟨ascii, hascii, hhost⟩ := Option.bind_eq_some_iff.mp h
  obtain rfl := hs.domain_to_ascii hidna hascii
  refine ⟨hascii, ?_⟩
  by_cases hnumber : endsInNumber ascii
  · rw [if_pos hnumber] at hhost
    obtain ⟨address, haddress, rfl⟩ := Option.map_eq_some_iff.mp hhost
    exact Or.inr ⟨hnumber, address, haddress, rfl⟩
  · rw [if_neg hnumber] at hhost
    exact Or.inl ⟨by simpa using hnumber, (Option.some.inj hhost).symm⟩

/-- The text of the parsed host is lower case and is parsed as the same host. -/
theorem parse_host_serialize (hs : IsLowerDomain s) (hidna : idna.KeepsAscii)
    (h : parseHost idna true s = some host) :
    IsLowerDomain (serializeHost host) ∧ parseHost idna true (serializeHost host) = some host := by
  obtain ⟨-, ⟨-, rfl⟩ | ⟨-, address, haddress, rfl⟩⟩ := parse_host_lower hs hidna h
  · exact ⟨hs, h⟩
  · exact ⟨serialize_ipv4_lower address, parse_host_ipv4 (parse_ipv4_lt haddress)⟩

/-- The text of the parsed host is the text that was parsed, unless that is another way of writing
an IPv4 address. -/
theorem serialize_host_eq_iff (hs : IsLowerDomain s) (hidna : idna.KeepsAscii)
    (h : parseHost idna true s = some host) :
    serializeHost host = s ↔
      (endsInNumber s = true → ∃ address < 256 ^ 4, s = serializeIpv4 address) := by
  obtain ⟨-, ⟨hname, rfl⟩ | ⟨hnumber, address, haddress, rfl⟩⟩ := parse_host_lower hs hidna h
  · simp [serializeHost, hname]
  · constructor
    · intro heq _
      exact ⟨address, parse_ipv4_lt haddress, heq.symm⟩
    · intro hcanonical
      obtain ⟨written, hlt, rfl⟩ := hcanonical hnumber
      rw [parse_serialize_ipv4 hlt] at haddress
      rw [Option.some.inj haddress]
      rfl

end

end Web
