import AgentResolver.Web.Utf8

/-!
# Decoding what was encoded

The decoder reads the encoding of every scalar value back, whatever follows it
(`decode_from_encode_char`). So the byte sequences that survive decoding and encoding again are
exactly the well-formed ones, which are described by the ranges of their bytes:
`encode_decode_iff`.
-/

namespace Web

/-! ## Bytes of a sequence -/

variable {point missing lower upper : Nat} {byte : UInt8}

/-- Between two sequences a byte is read as the first of the next one. -/
theorem decode_step_initial (byte : Nat) : decodeStep .initial byte = decodeFirst byte := rfl

/-- A byte at the start of a sequence of several bytes. -/
theorem decode_from_first {next : DecoderState} (h : decodeFirst byte.toNat = (next, []))
    (rest : List UInt8) : decodeFrom .initial (byte :: rest) = decodeFrom next rest := by
  rw [decodeFrom, decode_step_initial, h]
  rfl

/-- A continuation byte with others to follow. -/
theorem decode_from_next (hlower : lower ≤ byte.toNat) (hupper : byte.toNat ≤ upper)
    (rest : List UInt8) :
    decodeFrom ⟨point, missing + 2, lower, upper⟩ (byte :: rest) =
      decodeFrom ⟨point * 0x40 + byte.toNat % 0x40, missing + 1, 0x80, 0xBF⟩ rest := by
  have hstep : decodeStep ⟨point, missing + 2, lower, upper⟩ byte.toNat =
      (⟨point * 0x40 + byte.toNat % 0x40, missing + 1, 0x80, 0xBF⟩, []) := by
    rw [decodeStep, if_neg (by simp), if_pos ⟨hlower, hupper⟩]
    exact if_neg (by simp)
  rw [decodeFrom, hstep]
  rfl

/-- A continuation byte that completes a sequence. -/
theorem decode_from_last (hlower : lower ≤ byte.toNat) (hupper : byte.toNat ≤ upper)
    (rest : List UInt8) :
    decodeFrom ⟨point, 1, lower, upper⟩ (byte :: rest) =
      Char.ofNat (point * 0x40 + byte.toNat % 0x40) :: decodeFrom .initial rest := by
  have hstep : decodeStep ⟨point, 1, lower, upper⟩ byte.toNat =
      (.initial, [Char.ofNat (point * 0x40 + byte.toNat % 0x40)]) := by
    rw [decodeStep, if_neg (by simp), if_pos ⟨hlower, hupper⟩]
    exact if_pos rfl
  rw [decodeFrom, hstep]
  rfl

/-- A byte of an encoding as a number. -/
theorem byte_to_nat {n : Nat} (h : n < 256) : (UInt8.ofNat n).toNat = n := by
  rw [UInt8.toNat_ofNat', Nat.mod_eq_of_lt h]

/-! ## Whole strings -/

/-- A code point below U+0080 is read back from its byte. -/
theorem decode_from_one {n : Nat} (h : n ≤ 0x7F) (rest : List UInt8) :
    decodeFrom .initial (UInt8.ofNat n :: rest) = Char.ofNat n :: decodeFrom .initial rest := by
  have hbyte := @byte_to_nat n (by omega)
  have hstep : decodeStep .initial (UInt8.ofNat n).toNat = (.initial, [Char.ofNat n]) := by
    rw [decode_step_initial, hbyte, decodeFirst, if_pos h]
  rw [decodeFrom, hstep]
  rfl

/-- A code point from U+0080 on and below U+0800 is read back from its two bytes. -/
theorem decode_from_two {n : Nat} (hlow : 0x7F < n) (hhigh : n ≤ 0x7FF) (rest : List UInt8) :
    decodeFrom .initial (UInt8.ofNat (n / 64 % 0x20 + 0xC0) :: UInt8.ofNat (n % 0x40 + 0x80) ::
      rest) = Char.ofNat n :: decodeFrom .initial rest := by
  have hlead := @byte_to_nat (n / 64 % 0x20 + 0xC0) (by omega)
  have hlast := @byte_to_nat (n % 0x40 + 0x80) (by omega)
  have hfirst : decodeFirst (UInt8.ofNat (n / 64 % 0x20 + 0xC0)).toNat =
      (⟨(n / 64 % 0x20 + 0xC0) % 0x20, 1, 0x80, 0xBF⟩, []) := by
    rw [hlead, decodeFirst, if_neg (by omega), if_pos (by omega)]
  have hpoint : (n / 64 % 0x20 + 0xC0) % 0x20 * 0x40 + (n % 0x40 + 0x80) % 0x40 = n := by omega
  rw [decode_from_first hfirst, decode_from_last (by omega) (by omega), hlast, hpoint]

/-- A code point from U+0800 on and below U+10000 that is no surrogate is read back from its three
bytes. -/
theorem decode_from_three {n : Nat} (hlow : 0x7FF < n) (hhigh : n ≤ 0xFFFF)
    (hscalar : n < 0xD800 ∨ 0xDFFF < n) (rest : List UInt8) :
    decodeFrom .initial (UInt8.ofNat (n / 4096 % 0x10 + 0xE0) ::
      UInt8.ofNat (n / 64 % 0x40 + 0x80) :: UInt8.ofNat (n % 0x40 + 0x80) :: rest) =
        Char.ofNat n :: decodeFrom .initial rest := by
  have hlead := @byte_to_nat (n / 4096 % 0x10 + 0xE0) (by omega)
  have hsecond := @byte_to_nat (n / 64 % 0x40 + 0x80) (by omega)
  have hlast := @byte_to_nat (n % 0x40 + 0x80) (by omega)
  have hfirst : decodeFirst (UInt8.ofNat (n / 4096 % 0x10 + 0xE0)).toNat =
      (⟨(n / 4096 % 0x10 + 0xE0) % 0x10, 2,
        if n / 4096 % 0x10 + 0xE0 = 0xE0 then 0xA0 else 0x80,
        if n / 4096 % 0x10 + 0xE0 = 0xED then 0x9F else 0xBF⟩, []) := by
    rw [hlead, decodeFirst, if_neg (by omega), if_neg (by omega), if_pos (by omega)]
  have hpoint : ((n / 4096 % 0x10 + 0xE0) % 0x10 * 0x40 + (n / 64 % 0x40 + 0x80) % 0x40) * 0x40 +
      (n % 0x40 + 0x80) % 0x40 = n := by omega
  rw [decode_from_first hfirst,
    @decode_from_next _ 0 _ _ _ (by split <;> omega) (by split <;> omega),
    decode_from_last (by omega) (by omega), hsecond, hlast, hpoint]

/-- A code point from U+10000 on is read back from its four bytes. -/
theorem decode_from_four {n : Nat} (hlow : 0xFFFF < n) (hhigh : n < 0x110000)
    (rest : List UInt8) :
    decodeFrom .initial (UInt8.ofNat (n / 262144 % 0x08 + 0xF0) ::
      UInt8.ofNat (n / 4096 % 0x40 + 0x80) :: UInt8.ofNat (n / 64 % 0x40 + 0x80) ::
        UInt8.ofNat (n % 0x40 + 0x80) :: rest) = Char.ofNat n :: decodeFrom .initial rest := by
  have hlead := @byte_to_nat (n / 262144 % 0x08 + 0xF0) (by omega)
  have hsecond := @byte_to_nat (n / 4096 % 0x40 + 0x80) (by omega)
  have hthird := @byte_to_nat (n / 64 % 0x40 + 0x80) (by omega)
  have hlast := @byte_to_nat (n % 0x40 + 0x80) (by omega)
  have hfirst : decodeFirst (UInt8.ofNat (n / 262144 % 0x08 + 0xF0)).toNat =
      (⟨(n / 262144 % 0x08 + 0xF0) % 8, 3,
        if n / 262144 % 0x08 + 0xF0 = 0xF0 then 0x90 else 0x80,
        if n / 262144 % 0x08 + 0xF0 = 0xF4 then 0x8F else 0xBF⟩, []) := by
    rw [hlead, decodeFirst, if_neg (by omega), if_neg (by omega), if_neg (by omega),
      if_pos (by omega)]
  have hpoint : (((n / 262144 % 0x08 + 0xF0) % 8 * 0x40 + (n / 4096 % 0x40 + 0x80) % 0x40) * 0x40 +
      (n / 64 % 0x40 + 0x80) % 0x40) * 0x40 + (n % 0x40 + 0x80) % 0x40 = n := by omega
  rw [decode_from_first hfirst,
    @decode_from_next _ 1 _ _ _ (by split <;> omega) (by split <;> omega),
    @decode_from_next _ 0 _ _ _ (by omega) (by omega),
    decode_from_last (by omega) (by omega), hsecond, hthird, hlast, hpoint]

/-- The encoding of a character is read back. -/
theorem decode_from_encode_char (c : Char) (rest : List UInt8) :
    decodeFrom .initial (String.utf8EncodeChar c ++ rest) = c :: decodeFrom .initial rest := by
  have hvalid : c.toNat < 0xD800 ∨ (0xDFFF < c.toNat ∧ c.toNat < 0x110000) := c.valid
  have hvalue : c.val.toNat = c.toNat := rfl
  have hread : Char.ofNat c.toNat :: decodeFrom .initial rest = c :: decodeFrom .initial rest := by
    rw [Char.ofNat_toNat]
  unfold String.utf8EncodeChar
  simp only [hvalue]
  split
  · rename_i hone
    exact (decode_from_one hone rest).trans hread
  · rename_i hone
    split
    · rename_i htwo
      exact (decode_from_two (Nat.not_le.mp hone) htwo rest).trans hread
    · rename_i htwo
      split
      · rename_i hthree
        exact (decode_from_three (Nat.not_le.mp htwo) hthree (by omega) rest).trans hread
      · rename_i hthree
        exact (decode_from_four (Nat.not_le.mp hthree) (by omega) rest).trans hread

/-- Decoding undoes encoding. -/
theorem decode_encode (s : ScalarString) : decode (encode s) = s := by
  induction s with
  | nil => rfl
  | cons c rest ih =>
      rw [decode, encode, List.flatMap_cons, decode_from_encode_char]
      exact congrArg (c :: ·) ih

/-! ## Well-formed byte sequences -/

/-- A byte that continues a sequence. -/
def IsContinuation (byte : UInt8) : Prop := 0x80 ≤ byte.toNat ∧ byte.toNat ≤ 0xBF

/-- The byte sequences that encode one scalar value, by the ranges of their bytes. The bounds of
the second byte exclude overlong forms, surrogates and numbers above U+10FFFF. -/
inductive IsUtf8Sequence : List UInt8 → Prop where
  | one {a : UInt8} : a.toNat ≤ 0x7F → IsUtf8Sequence [a]
  | two {a b : UInt8} : 0xC2 ≤ a.toNat → a.toNat ≤ 0xDF → IsContinuation b →
      IsUtf8Sequence [a, b]
  | three {a b c : UInt8} : 0xE0 ≤ a.toNat → a.toNat ≤ 0xEF → IsContinuation b →
      (a.toNat = 0xE0 → 0xA0 ≤ b.toNat) → (a.toNat = 0xED → b.toNat ≤ 0x9F) →
      IsContinuation c → IsUtf8Sequence [a, b, c]
  | four {a b c d : UInt8} : 0xF0 ≤ a.toNat → a.toNat ≤ 0xF4 → IsContinuation b →
      (a.toNat = 0xF0 → 0x90 ≤ b.toNat) → (a.toNat = 0xF4 → b.toNat ≤ 0x8F) →
      IsContinuation c → IsContinuation d → IsUtf8Sequence [a, b, c, d]

/-- Well-formed UTF-8: sequences of scalar values, one after the other. -/
inductive IsUtf8 : List UInt8 → Prop where
  | nil : IsUtf8 []
  | append {sequence rest : List UInt8} : IsUtf8Sequence sequence → IsUtf8 rest →
      IsUtf8 (sequence ++ rest)

/-- A byte is given by its number. -/
theorem of_nat_eq_byte {n : Nat} (h : n = byte.toNat) : UInt8.ofNat n = byte := by
  rw [h, UInt8.ofNat_toNat]

/-- The encoding of a character is one of the sequences. -/
theorem sequence_encode_char (c : Char) : IsUtf8Sequence (String.utf8EncodeChar c) := by
  have hvalid : c.toNat < 0xD800 ∨ (0xDFFF < c.toNat ∧ c.toNat < 0x110000) := c.valid
  have hvalue : c.val.toNat = c.toNat := rfl
  have hlast := @byte_to_nat (c.toNat % 0x40 + 0x80) (by omega)
  have hsecond := @byte_to_nat (c.toNat / 64 % 0x40 + 0x80) (by omega)
  have hthird := @byte_to_nat (c.toNat / 4096 % 0x40 + 0x80) (by omega)
  unfold String.utf8EncodeChar
  simp only [hvalue]
  split
  · have hlead := @byte_to_nat c.toNat (by omega)
    exact .one (by omega)
  · split
    · have hlead := @byte_to_nat (c.toNat / 64 % 0x20 + 0xC0) (by omega)
      exact .two (by omega) (by omega) ⟨by omega, by omega⟩
    · split
      · have hlead := @byte_to_nat (c.toNat / 4096 % 0x10 + 0xE0) (by omega)
        exact .three (by omega) (by omega) ⟨by omega, by omega⟩ (by omega) (by omega)
          ⟨by omega, by omega⟩
      · have hlead := @byte_to_nat (c.toNat / 262144 % 0x08 + 0xF0) (by omega)
        exact .four (by omega) (by omega) ⟨by omega, by omega⟩ (by omega) (by omega)
          ⟨by omega, by omega⟩ ⟨by omega, by omega⟩

/-- The number of a character given by its number. -/
theorem of_nat_to_nat {n : Nat} (h : n < 0xD800 ∨ (0xDFFF < n ∧ n < 0x110000)) :
    (Char.ofNat n).toNat = n := by
  have hvalid : n.isValidChar := h
  rw [Char.ofNat, dif_pos hvalid]
  rfl

/-- Each of the sequences encodes a character. -/
theorem IsUtf8Sequence.exists_char {sequence : List UInt8} (h : IsUtf8Sequence sequence) :
    ∃ c, String.utf8EncodeChar c = sequence := by
  cases h with
  | @one a ha =>
      refine ⟨Char.ofNat a.toNat, ?_⟩
      have hc := @of_nat_to_nat a.toNat (by omega)
      have hvalue : (Char.ofNat a.toNat).val.toNat = a.toNat := hc
      unfold String.utf8EncodeChar
      simp only [hvalue]
      rw [if_pos ha, UInt8.ofNat_toNat]
  | @two a b ha ha' hb =>
      obtain ⟨hb, hb'⟩ := hb
      have hc := @of_nat_to_nat (a.toNat % 0x20 * 0x40 + b.toNat % 0x40) (by omega)
      refine ⟨Char.ofNat (a.toNat % 0x20 * 0x40 + b.toNat % 0x40), ?_⟩
      unfold String.utf8EncodeChar
      simp only [show (Char.ofNat _).val.toNat = _ from hc]
      rw [if_neg (by omega), if_pos (by omega), of_nat_eq_byte (by omega : _ = a.toNat),
        of_nat_eq_byte (by omega : _ = b.toNat)]
  | @three a b c ha ha' hb hlow hhigh hc =>
      obtain ⟨hb, hb'⟩ := hb
      obtain ⟨hc, hc'⟩ := hc
      have hpoint := @of_nat_to_nat
        ((a.toNat % 0x10 * 0x40 + b.toNat % 0x40) * 0x40 + c.toNat % 0x40) (by omega)
      refine ⟨Char.ofNat
        ((a.toNat % 0x10 * 0x40 + b.toNat % 0x40) * 0x40 + c.toNat % 0x40), ?_⟩
      unfold String.utf8EncodeChar
      simp only [show (Char.ofNat _).val.toNat = _ from hpoint]
      rw [if_neg (by omega), if_neg (by omega), if_pos (by omega),
        of_nat_eq_byte (by omega : _ = a.toNat), of_nat_eq_byte (by omega : _ = b.toNat),
        of_nat_eq_byte (by omega : _ = c.toNat)]
  | @four a b c d ha ha' hb hlow hhigh hc hd =>
      obtain ⟨hb, hb'⟩ := hb
      obtain ⟨hc, hc'⟩ := hc
      obtain ⟨hd, hd'⟩ := hd
      have hpoint := @of_nat_to_nat (((a.toNat % 8 * 0x40 + b.toNat % 0x40) * 0x40 +
        c.toNat % 0x40) * 0x40 + d.toNat % 0x40) (by omega)
      refine ⟨Char.ofNat (((a.toNat % 8 * 0x40 + b.toNat % 0x40) * 0x40 +
        c.toNat % 0x40) * 0x40 + d.toNat % 0x40), ?_⟩
      unfold String.utf8EncodeChar
      simp only [show (Char.ofNat _).val.toNat = _ from hpoint]
      rw [if_neg (by omega), if_neg (by omega), if_neg (by omega),
        of_nat_eq_byte (by omega : _ = a.toNat), of_nat_eq_byte (by omega : _ = b.toNat),
        of_nat_eq_byte (by omega : _ = c.toNat), of_nat_eq_byte (by omega : _ = d.toNat)]

/-- The well-formed byte sequences are the encodings of scalar strings. -/
theorem is_utf8_iff {bytes : List UInt8} : IsUtf8 bytes ↔ ∃ s, encode s = bytes := by
  constructor
  · intro h
    induction h with
    | nil => exact ⟨[], rfl⟩
    | append hsequence hrest ih =>
        obtain ⟨c, rfl⟩ := hsequence.exists_char
        obtain ⟨s, rfl⟩ := ih
        exact ⟨c :: s, rfl⟩
  · intro h
    obtain ⟨s, rfl⟩ := h
    induction s with
    | nil => exact .nil
    | cons c s ih => exact .append (sequence_encode_char c) ih

/-- Encoding undoes decoding exactly on well-formed byte sequences. -/
theorem encode_decode_iff {bytes : List UInt8} :
    encode (decode bytes) = bytes ↔ IsUtf8 bytes := by
  rw [is_utf8_iff]
  constructor
  · intro h
    exact ⟨decode bytes, h⟩
  · intro h
    obtain ⟨s, rfl⟩ := h
    rw [decode_encode]

end Web
