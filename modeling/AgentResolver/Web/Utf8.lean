import AgentResolver.JavaScript.CaseMapping

/-!
# Scalar values and UTF-8

Conversions between JavaScript strings, strings of Unicode scalar values (`List Char`, which the
URL standard works on) and bytes. `decode` is the UTF-8 decoder of the Encoding standard, which
replaces ill-formed sequences by U+FFFD and never fails.
-/

namespace Web

open JavaScript

/-- A string of Unicode scalar values. -/
abbrev ScalarString := List Char

def replacementCharacter : Char := Char.ofNat 0xFFFD

/-- Conversion of a code point to a scalar value; surrogates are replaced. -/
def scalarOf (point : Nat) : Char :=
  if 0xD800 ≤ point ∧ point ≤ 0xDFFF then replacementCharacter else Char.ofNat point

/-- The scalar values of a JavaScript string, as `new URL` reads its arguments. -/
def toScalars (s : JSString) : ScalarString := (codePoints s).map scalarOf

/-- The JavaScript string of a scalar string. -/
def ofScalars (s : ScalarString) : JSString := s.flatMap fun c => ofCodePoint c.toNat

/-- The UTF-8 encoding of a scalar string. -/
def encode (s : ScalarString) : List UInt8 := s.flatMap String.utf8EncodeChar

/-- The state of the UTF-8 decoder between two bytes: the bits read of a code point, the number
of continuation bytes that are missing, and the bounds of the next one. -/
structure DecoderState where
  point : Nat
  needed : Nat
  lower : Nat
  upper : Nat

def DecoderState.initial : DecoderState := ⟨0, 0, 0x80, 0xBF⟩

/-- A byte outside a sequence. -/
def decodeFirst (byte : Nat) : DecoderState × ScalarString :=
  if byte ≤ 0x7F then (.initial, [Char.ofNat byte])
  else if 0xC2 ≤ byte ∧ byte ≤ 0xDF then (⟨byte % 0x20, 1, 0x80, 0xBF⟩, [])
  else if 0xE0 ≤ byte ∧ byte ≤ 0xEF then
    (⟨byte % 0x10, 2, if byte = 0xE0 then 0xA0 else 0x80, if byte = 0xED then 0x9F else 0xBF⟩, [])
  else if 0xF0 ≤ byte ∧ byte ≤ 0xF4 then
    (⟨byte % 8, 3, if byte = 0xF0 then 0x90 else 0x80, if byte = 0xF4 then 0x8F else 0xBF⟩, [])
  else (.initial, [replacementCharacter])

/-- One byte of input: the next state and the characters it completes. A byte that cannot
continue the current sequence ends it and is read again. -/
def decodeStep (state : DecoderState) (byte : Nat) : DecoderState × ScalarString :=
  if state.needed = 0 then decodeFirst byte
  else if state.lower ≤ byte ∧ byte ≤ state.upper then
    let point := state.point * 0x40 + byte % 0x40
    if state.needed = 1 then (.initial, [Char.ofNat point])
    else (⟨point, state.needed - 1, 0x80, 0xBF⟩, [])
  else
    let (next, decoded) := decodeFirst byte
    (next, replacementCharacter :: decoded)

/-- The decoder run from a state to the end of the input. -/
def decodeFrom (state : DecoderState) : List UInt8 → ScalarString
  | [] => if state.needed = 0 then [] else [replacementCharacter]
  | byte :: rest =>
      let (next, decoded) := decodeStep state byte.toNat
      decoded ++ decodeFrom next rest

/-- UTF-8 decode without BOM handling. -/
def decode (bytes : List UInt8) : ScalarString := decodeFrom .initial bytes

/-- A character below U+0080. -/
def isAsciiChar (c : Char) : Bool := c.toNat < 0x80

/-- ASCII characters are encoded as themselves. -/
theorem encode_ascii_char {c : Char} (h : isAsciiChar c) :
    String.utf8EncodeChar c = [UInt8.ofNat c.toNat] := by
  have hc : c.toNat < 0x80 := by simpa [isAsciiChar] using h
  have hval : c.toNat ≤ 127 := by omega
  simp [String.utf8EncodeChar, hval]

/-- Decoding undoes encoding on ASCII strings. -/
theorem decode_encode_ascii {s : ScalarString} (h : ∀ c ∈ s, isAsciiChar c) :
    decode (encode s) = s := by
  induction s with
  | nil => rfl
  | cons c rest ih =>
      have hc : c.toNat < 0x80 := by simpa [isAsciiChar] using h c (by simp)
      have hrest := ih (fun d hd => h d (List.mem_cons_of_mem _ hd))
      have hbyte : (UInt8.ofNat c.toNat).toNat = c.toNat := by
        simp [Nat.mod_eq_of_lt (show c.toNat < 256 by omega)]
      rw [encode, List.flatMap_cons, encode_ascii_char (h c (by simp))]
      simp only [decode, encode, List.cons_append, List.nil_append, decodeFrom, decodeStep,
        DecoderState.initial, if_true, hbyte, decodeFirst] at hrest ⊢
      rw [if_pos (by omega)]
      simp [hrest]

end Web
