import AgentResolver.Web.Utf8

/-!
# Percent-encoding

The percent-encode sets and the percent codec of the URL standard. A set is a predicate on
characters; encoding with a set replaces each member by the escapes of its UTF-8 bytes.
-/

namespace Web

def isC0Control (c : Char) : Bool := c.toNat ≤ 0x1F

def inC0ControlSet (c : Char) : Bool := isC0Control c || 0x7E < c.toNat

def inFragmentSet (c : Char) : Bool :=
  inC0ControlSet c || c == ' ' || c == '"' || c == '<' || c == '>' || c.toNat == 0x60

def inQuerySet (c : Char) : Bool :=
  inC0ControlSet c || c == ' ' || c == '"' || c == '#' || c == '<' || c == '>'

def inSpecialQuerySet (c : Char) : Bool := inQuerySet c || c.toNat == 0x27

def inPathSet (c : Char) : Bool :=
  inQuerySet c || c == '?' || c.toNat == 0x60 || c.toNat == 0x7B || c.toNat == 0x7D

def inUserinfoSet (c : Char) : Bool :=
  inPathSet c || c == '/' || c == ':' || c == ';' || c == '=' || c == '@' || c == '[' ||
    c == '\\' || c == ']' || c == '^' || c == '|'

def upperHexDigit (n : Nat) : Char :=
  Char.ofNat (if n < 10 then 0x30 + n else 0x37 + n)

def percentEncodeByte (byte : UInt8) : ScalarString :=
  ['%', upperHexDigit (byte.toNat / 16), upperHexDigit (byte.toNat % 16)]

/-- UTF-8 percent-encode a string with a set. -/
def percentEncode (set : Char → Bool) (s : ScalarString) : ScalarString :=
  s.flatMap fun c =>
    if set c then (String.utf8EncodeChar c).flatMap percentEncodeByte else [c]

/-- The value of an ASCII hex digit. -/
def hexValue (c : Nat) : Option Nat :=
  if 0x30 ≤ c ∧ c ≤ 0x39 then some (c - 0x30)
  else if 0x41 ≤ c ∧ c ≤ 0x46 then some (c - 0x37)
  else if 0x61 ≤ c ∧ c ≤ 0x66 then some (c - 0x57)
  else none

/-- Percent-decode a byte sequence. -/
def percentDecode : List UInt8 → List UInt8
  | [] => []
  | [byte] => [byte]
  | [byte, next] => [byte, next]
  | byte :: high :: low :: rest =>
      match hexValue high.toNat, hexValue low.toNat with
      | some h, some l =>
          if byte = 0x25 then UInt8.ofNat (16 * h + l) :: percentDecode rest
          else byte :: percentDecode (high :: low :: rest)
      | _, _ => byte :: percentDecode (high :: low :: rest)

/-- Characters outside the set are kept. -/
theorem percent_encode_eq_self {set : Char → Bool} {s : ScalarString}
    (h : ∀ c ∈ s, set c = false) : percentEncode set s = s := by
  induction s with
  | nil => rfl
  | cons c rest ih =>
      have hrest : percentEncode set rest = rest :=
        ih fun d hd => h d (List.mem_cons_of_mem _ hd)
      rw [percentEncode, List.flatMap_cons, if_neg (by simp [h c])]
      simpa [percentEncode] using hrest

/-- A percent sign and two upper-case hexadecimal digits. -/
theorem percent_encode_byte_mem {byte : UInt8} {c : Char} (h : c ∈ percentEncodeByte byte) :
    c ∈ "%0123456789ABCDEF".toList := by
  have hdigit : ∀ n < 16, upperHexDigit n ∈ "%0123456789ABCDEF".toList := by decide
  have hbyte : byte.toNat < 256 := byte.toNat_lt
  simp only [percentEncodeByte, List.mem_cons, List.not_mem_nil, or_false] at h
  rcases h with rfl | rfl | rfl
  · decide
  · exact hdigit _ (by omega)
  · exact hdigit _ (by omega)

/-- What holds of the characters that are kept and of those of escapes holds of an encoded text. -/
theorem percent_encode_forall {set : Char → Bool} {p : Char → Prop} {s : ScalarString}
    (hkept : ∀ c ∈ s, set c = false → p c) (hescape : ∀ c ∈ "%0123456789ABCDEF".toList, p c) :
    ∀ c ∈ percentEncode set s, p c := by
  intro c hc
  obtain ⟨source, hsource, hc⟩ := List.mem_flatMap.mp hc
  split at hc
  · obtain ⟨byte, -, hc⟩ := List.mem_flatMap.mp hc
    exact hescape c (percent_encode_byte_mem hc)
  · rename_i hset
    rw [List.mem_singleton.mp hc]
    exact hkept source hsource (by simpa using hset)

/-- An encoded text starts as the text does, or with an escape. -/
theorem percent_encode_head {set : Char → Bool} {s : ScalarString} {c : Char}
    (h : (percentEncode set s).head? = some c) : c = '%' ∨ s.head? = some c := by
  cases s with
  | nil => cases h
  | cons d rest =>
      rw [percentEncode, List.flatMap_cons] at h
      split at h
      · obtain ⟨byte, more, hbytes⟩ := List.exists_cons_of_ne_nil String.utf8EncodeChar_ne_nil
        rw [hbytes] at h
        exact Or.inl (Option.some.inj h).symm
      · exact Or.inr h

/-- Only the empty text is encoded as the empty text. -/
theorem percent_encode_eq_nil {set : Char → Bool} {s : ScalarString}
    (h : percentEncode set s = []) : s = [] := by
  cases s with
  | nil => rfl
  | cons c rest =>
      rw [percentEncode, List.flatMap_cons, List.append_eq_nil_iff] at h
      split at h
      · obtain ⟨byte, more, hbytes⟩ := List.exists_cons_of_ne_nil String.utf8EncodeChar_ne_nil
        rw [hbytes] at h
        cases h.1
      · cases h.1

/-- Decoding changes nothing where there is no percent sign. -/
theorem percent_decode_eq_self {bytes : List UInt8} (h : ∀ byte ∈ bytes, byte ≠ 0x25) :
    percentDecode bytes = bytes := by
  fun_induction percentDecode bytes with
  | case1 | case2 | case3 => rfl
  | case4 => exact absurd rfl (h 0x25 (by simp))
  | case5 byte high low rest _ _ _ _ _ ih | case6 byte high low rest _ ih =>
      rw [ih fun b hb => h b (List.mem_cons_of_mem _ hb)]

end Web
