import AgentResolver.Web.Utf8

/-!
# Strings and scalar values

A scalar string written as a JavaScript string reads back as itself (`to_scalars_of_scalars`), and
ASCII text is read unit by unit, whatever follows it.
-/

namespace Web

open JavaScript

/-! ## Code points -/

/-- A unit that is not a high surrogate is a code point of its own. -/
theorem code_points_cons {c : CodeUnit} (h : c.toNat < 0xD800 ∨ 0xDC00 ≤ c.toNat)
    (rest : JSString) : codePoints (c :: rest) = c.toNat :: codePoints rest := by
  cases rest with
  | nil => rfl
  | cons low rest =>
      refine if_neg ?_
      rintro ⟨hlow, hhigh, -⟩
      simp only [UInt16.le_iff_toNat_le, UInt16.reduceToNat] at hlow hhigh
      omega

/-- A surrogate pair is one code point. -/
theorem code_points_pair {high low : CodeUnit} (hhigh : 0xD800 ≤ high.toNat)
    (hhigh' : high.toNat ≤ 0xDBFF) (hlow : 0xDC00 ≤ low.toNat) (hlow' : low.toNat ≤ 0xDFFF)
    (rest : JSString) :
    codePoints (high :: low :: rest) =
      (0x10000 + (high.toNat - 0xD800) * 0x400 + (low.toNat - 0xDC00)) :: codePoints rest :=
  if_pos ⟨UInt16.le_iff_toNat_le.mpr hhigh, UInt16.le_iff_toNat_le.mpr hhigh',
    UInt16.le_iff_toNat_le.mpr hlow, UInt16.le_iff_toNat_le.mpr hlow'⟩

/-- The code points of a written character are that character. -/
theorem code_points_of_char (c : Char) (rest : JSString) :
    codePoints (ofCodePoint c.toNat ++ rest) = c.toNat :: codePoints rest := by
  have hvalid : c.toNat < 0xD800 ∨ 0xDFFF < c.toNat ∧ c.toNat < 0x110000 := c.valid
  unfold ofCodePoint
  by_cases hplane : c.toNat < 0x10000
  · have hunit : (UInt16.ofNat c.toNat).toNat = c.toNat := by
      simp only [UInt16.toNat_ofNat']
      omega
    rw [if_pos hplane, List.cons_append, List.nil_append, code_points_cons (by omega), hunit]
  · have hhigh : (UInt16.ofNat (0xD800 + (c.toNat - 0x10000) / 0x400)).toNat =
        0xD800 + (c.toNat - 0x10000) / 0x400 := by
      simp only [UInt16.toNat_ofNat']
      omega
    have hlow : (UInt16.ofNat (0xDC00 + (c.toNat - 0x10000) % 0x400)).toNat =
        0xDC00 + (c.toNat - 0x10000) % 0x400 := by
      simp only [UInt16.toNat_ofNat']
      omega
    rw [if_neg hplane, List.cons_append, List.cons_append, List.nil_append,
      code_points_pair (by omega) (by omega) (by omega) (by omega), hhigh, hlow]
    have hpoint : 0x10000 + (0xD800 + (c.toNat - 0x10000) / 0x400 - 0xD800) * 0x400 +
        (0xDC00 + (c.toNat - 0x10000) % 0x400 - 0xDC00) = c.toNat := by
      omega
    rw [hpoint]

/-! ## Round trip -/

theorem scalar_of_char (c : Char) : scalarOf c.toNat = c := by
  have hvalid : c.toNat < 0xD800 ∨ 0xDFFF < c.toNat ∧ c.toNat < 0x110000 := c.valid
  rw [scalarOf, if_neg (by omega), Char.ofNat_toNat]

@[simp] theorem of_scalars_append (s t : ScalarString) :
    ofScalars (s ++ t) = ofScalars s ++ ofScalars t := List.flatMap_append

/-- Writing a scalar string and reading it gives it back, also in front of other text. -/
theorem to_scalars_of_scalars_append (s : ScalarString) (rest : JSString) :
    toScalars (ofScalars s ++ rest) = s ++ toScalars rest := by
  induction s with
  | nil => rfl
  | cons c s ih =>
      show (codePoints ((ofCodePoint c.toNat ++ ofScalars s) ++ rest)).map scalarOf = _
      rw [List.append_assoc, code_points_of_char, List.map_cons, scalar_of_char]
      exact congrArg (c :: ·) ih

theorem to_scalars_of_scalars (s : ScalarString) : toScalars (ofScalars s) = s := by
  have h := to_scalars_of_scalars_append s []
  rwa [List.append_nil, show toScalars [] = [] from rfl, List.append_nil] at h

theorem of_scalars_injective : Function.Injective ofScalars :=
  Function.LeftInverse.injective to_scalars_of_scalars

/-! ## ASCII text -/

/-- ASCII characters are written as one unit each. -/
theorem of_scalars_ascii {s : ScalarString} (h : ∀ c ∈ s, isAsciiChar c) :
    ofScalars s = s.map unit := by
  induction s with
  | nil => rfl
  | cons c s ih =>
      have hc : c.toNat < 0x80 := by simpa [isAsciiChar] using h c (by simp)
      show ofCodePoint c.toNat ++ ofScalars s = _
      rw [ih fun d hd => h d (List.mem_cons_of_mem _ hd), ofCodePoint, if_pos (by omega)]
      rfl

/-- A literal is read back as its characters. -/
theorem to_scalars_text_append {s : String} (h : ∀ c ∈ s.toList, isAsciiChar c)
    (rest : JSString) : toScalars (text s ++ rest) = s.toList ++ toScalars rest := by
  rw [text, ← of_scalars_ascii h, to_scalars_of_scalars_append]

/-- The character of an ASCII unit. -/
def charOf (c : CodeUnit) : Char := Char.ofNat c.toNat

theorem char_of_to_nat {c : CodeUnit} (h : IsAscii c) : (charOf c).toNat = c.toNat :=
  (by decide : ∀ n < 0x80, (Char.ofNat n).toNat = n) c.toNat h

/-- ASCII text is read unit by unit. -/
theorem to_scalars_ascii {s : JSString} (h : ∀ c ∈ s, IsAscii c) :
    toScalars s = s.map charOf := by
  rw [toScalars, code_points_ascii h, List.map_map]
  refine List.map_congr_left fun c hc => ?_
  have hsmall : c.toNat < 0x80 := h c hc
  show scalarOf c.toNat = _
  rw [scalarOf, if_neg (by omega)]
  rfl

/-- Reading and writing ASCII text changes nothing. -/
theorem of_scalars_to_scalars {s : JSString} (h : ∀ c ∈ s, IsAscii c) :
    ofScalars (toScalars s) = s := by
  rw [to_scalars_ascii h]
  induction s with
  | nil => rfl
  | cons c s ih =>
      rw [List.map_cons]
      show ofCodePoint (charOf c).toNat ++ ofScalars (s.map charOf) = c :: s
      rw [ih fun d hd => h d (List.mem_cons_of_mem _ hd), char_of_to_nat (h c (by simp)),
        of_code_point_unit]
      rfl

end Web
