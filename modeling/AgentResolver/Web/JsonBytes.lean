import AgentResolver.JavaScript.JsonRoundTrip
import AgentResolver.Web.Scalars
import AgentResolver.Web.Utf8RoundTrip

/-!
# JSON texts as bytes

What `JSON.stringify` prints has no half of a surrogate pair that stands alone
(`value_text_scalar`), so its UTF-8 encoding loses nothing: a value that is printed and encoded is
decoded and read as what it shows (`parse_json_bytes`).
-/

namespace Web

open JavaScript

/-! ## Texts of scalar values -/

/-- A text without a half of a surrogate pair that stands alone. -/
def IsScalarText (s : JSString) : Prop := ∃ scalars, ofScalars scalars = s

theorem IsScalarText.nil : IsScalarText [] := ⟨[], rfl⟩

theorem IsScalarText.append {s t : JSString} (hs : IsScalarText s) (ht : IsScalarText t) :
    IsScalarText (s ++ t) := by
  obtain ⟨first, rfl⟩ := hs
  obtain ⟨second, rfl⟩ := ht
  exact ⟨first ++ second, of_scalars_append first second⟩

/-- A text of scalar values is not changed by its encoding. -/
theorem IsScalarText.decode_encode {s : JSString} (h : IsScalarText s) :
    ofScalars (decode (encode (toScalars s))) = s := by
  obtain ⟨scalars, rfl⟩ := h
  rw [to_scalars_of_scalars, Web.decode_encode]

/-- A unit that is no surrogate. -/
theorem scalar_text_unit {c : CodeUnit} (hhigh : isHighSurrogate c = false)
    (hlow : isLowSurrogate c = false) : IsScalarText [c] := by
  have hbound : c.toNat < 65536 := c.toNat_lt
  have hpoint : c.toNat < 0xD800 ∨ (0xDFFF < c.toNat ∧ c.toNat < 0x110000) := by
    rw [isHighSurrogate, Bool.and_eq_false_iff, decide_eq_false_iff_not, decide_eq_false_iff_not,
      UInt16.le_iff_toNat_le, UInt16.le_iff_toNat_le] at hhigh
    rw [isLowSurrogate, Bool.and_eq_false_iff, decide_eq_false_iff_not, decide_eq_false_iff_not,
      UInt16.le_iff_toNat_le, UInt16.le_iff_toNat_le] at hlow
    simp only [UInt16.reduceToNat] at hhigh hlow
    omega
  refine ⟨[Char.ofNat c.toNat], ?_⟩
  rw [ofScalars, List.flatMap_singleton, of_nat_to_nat hpoint, ofCodePoint, if_pos hbound,
    UInt16.ofNat_toNat]

/-- A surrogate pair. -/
theorem scalar_text_pair {high low : CodeUnit} (hhigh : isHighSurrogate high = true)
    (hlow : isLowSurrogate low = true) : IsScalarText [high, low] := by
  rw [isHighSurrogate, Bool.and_eq_true_iff, decide_eq_true_iff, decide_eq_true_iff,
    UInt16.le_iff_toNat_le, UInt16.le_iff_toNat_le] at hhigh
  rw [isLowSurrogate, Bool.and_eq_true_iff, decide_eq_true_iff, decide_eq_true_iff,
    UInt16.le_iff_toNat_le, UInt16.le_iff_toNat_le] at hlow
  simp only [UInt16.reduceToNat] at hhigh hlow
  refine ⟨[Char.ofNat (0x10000 + (high.toNat - 0xD800) * 0x400 + (low.toNat - 0xDC00))], ?_⟩
  rw [ofScalars, List.flatMap_singleton, of_nat_to_nat (by omega), ofCodePoint, if_neg (by omega)]
  have hfirst : 0xD800 + (0x10000 + (high.toNat - 0xD800) * 0x400 + (low.toNat - 0xDC00) -
      0x10000) / 0x400 = high.toNat := by omega
  have hsecond : 0xDC00 + (0x10000 + (high.toNat - 0xD800) * 0x400 + (low.toNat - 0xDC00) -
      0x10000) % 0x400 = low.toNat := by omega
  rw [hfirst, hsecond, UInt16.ofNat_toNat, UInt16.ofNat_toNat]

/-- ASCII text. -/
theorem scalar_text_ascii {s : JSString} (h : ∀ c ∈ s, IsAscii c) : IsScalarText s :=
  ⟨toScalars s, of_scalars_to_scalars h⟩

/-! ## What is printed -/

/-- The escapes are ASCII text. -/
theorem quote_unit_scalar (c : CodeUnit) : IsScalarText (quoteUnit c) := by
  have hletters : ∀ entry ∈ shortEscapes, ∀ d ∈ [backslash, entry.2], IsAscii d := by decide
  have hdigits : ∀ digit < 16, IsAscii (unit (Nat.digitChar digit)) := by decide
  unfold quoteUnit
  split
  · rename_i letter hletter
    obtain ⟨before, after, hentries, -⟩ := List.lookup_eq_some_iff.mp hletter
    exact scalar_text_ascii (hletters (c, letter) (hentries ▸ by simp))
  · split_ifs with hescaped
    · refine scalar_text_ascii (List.forall_mem_cons.mpr ⟨by decide,
        List.forall_mem_cons.mpr ⟨by decide, fun d hd => ?_⟩⟩)
      obtain ⟨shift, -, rfl⟩ := List.mem_map.mp hd
      exact hdigits _ (Nat.mod_lt _ (by decide))
    · rw [Bool.not_eq_true, Bool.or_eq_false_iff, Bool.or_eq_false_iff] at hescaped
      exact scalar_text_unit hescaped.1.2 hescaped.2

/-- A surrogate pair is printed as it is, and every other surrogate is escaped. -/
theorem quote_units_scalar (s : JSString) : IsScalarText (quoteUnits s) := by
  fun_induction quoteUnits s with
  | case1 => exact .nil
  | case2 c => exact quote_unit_scalar c
  | case3 c d rest hpair ih =>
      obtain ⟨hhigh, hlow⟩ := Bool.and_eq_true_iff.mp hpair
      exact (scalar_text_pair hhigh hlow).append ih
  | case4 c d rest hpair ih => exact (quote_unit_scalar c).append ih

theorem quote_scalar (s : JSString) : IsScalarText (quote s) := by
  have hmark : IsScalarText [unit '"'] := scalar_text_ascii (by decide)
  exact (hmark.append (quote_units_scalar s)).append hmark

theorem join_scalar {parts : List JSString} (hparts : ∀ part ∈ parts, IsScalarText part)
    {separator : JSString} (hseparator : IsScalarText separator) :
    IsScalarText (join parts separator) := by
  induction parts with
  | nil => exact .nil
  | cons part parts ih =>
      obtain ⟨hpart, hrest⟩ := List.forall_mem_cons.mp hparts
      cases parts with
      | nil =>
          rw [join, List.intercalate_singleton]
          exact hpart
      | cons next parts =>
          rw [join, List.intercalate_cons_cons]
          exact (hpart.append hseparator).append (ih hrest)

theorem line_break_scalar {gap indent : JSString} (h : IsScalarText indent) :
    IsScalarText (lineBreak gap indent) := by
  unfold lineBreak
  split
  · exact .nil
  · exact (scalar_text_ascii (by decide : ∀ c ∈ [unit '\n'], IsAscii c)).append h

theorem bracket_text_scalar {opening closing : CodeUnit} (hopening : IsScalarText [opening])
    (hclosing : IsScalarText [closing]) {gap indent : JSString} (hgap : IsScalarText gap)
    (hindent : IsScalarText indent) {parts : List JSString}
    (hparts : ∀ part ∈ parts, IsScalarText part) :
    IsScalarText (bracketText opening closing gap indent parts) := by
  have hcomma : IsScalarText [unit ','] := scalar_text_ascii (by decide)
  have hinner := @line_break_scalar gap _ (hindent.append hgap)
  unfold bracketText
  split
  · exact hopening.append hclosing
  · exact hopening.append (((hinner.append (join_scalar hparts (hcomma.append hinner))).append
      (line_break_scalar hindent)).append hclosing)

theorem member_text_scalar {gap s : JSString} (h : IsScalarText s) (key : JSString) :
    IsScalarText (memberText gap (key, s)) := by
  have hcolon : IsScalarText [unit ':'] := scalar_text_ascii (by decide)
  have hspace : IsScalarText (if gap.isEmpty then [] else text " ") := by
    split
    · exact .nil
    · exact scalar_text_ascii (by decide)
  rw [memberText, List.append_assoc, List.cons_append]
  exact (quote_scalar key).append (hcolon.append (hspace.append h))

theorem json_space_ascii {c : CodeUnit} (h : isJsonSpace c = true) : IsAscii c :=
  (by decide : ∀ c ∈ [(0x20 : CodeUnit), 0x09, 0x0A, 0x0D], IsAscii c) c (of_decide_eq_true h)

theorem number_unit_ascii {c : CodeUnit} (h : isNumberUnit c = true) : IsAscii c := by
  rcases Bool.or_eq_true_iff.mp h with hdigit | hmark
  · obtain ⟨-, hlast⟩ := Bool.and_eq_true_iff.mp hdigit
    exact UInt16.lt_of_le_of_lt (of_decide_eq_true hlast) (by decide)
  · exact (by decide : ∀ c ∈ [unit '.', unit 'e', unit 'E', unit '+', unit '-'], IsAscii c) c
      (of_decide_eq_true hmark)

theorem number_text_scalar {value : Rat} (h : IsDouble value) : IsScalarText (numberText value) :=
  scalar_text_ascii fun c hc => number_unit_ascii ((number_text_units h).1 c hc)

/-- The text of a value has no half of a surrogate pair that stands alone. -/
theorem value_text_scalar {gap : JSString} (hgap : IsScalarText gap) {value : JsonValue}
    (h : IsLanguageValue value) {indent : JSString} (hindent : IsScalarText indent) :
    IsScalarText (valueText gap indent value) := by
  induction value using json_induction generalizing indent with
  | null => exact @scalar_text_ascii (text "null") (by decide)
  | boolean value =>
      cases value with
      | true => exact @scalar_text_ascii (text "true") (by decide)
      | false => exact @scalar_text_ascii (text "false") (by decide)
  | number value =>
      cases h with
      | number hdouble => exact number_text_scalar hdouble
      | infinite negative => exact @scalar_text_ascii (text "null") (by decide)
  -- The escapes of `quote` are what keeps a lone half out of the text.
  | string value => exact quote_scalar value
  | array items ih =>
      obtain ⟨⟩ | ⟨⟩ | ⟨⟩ | ⟨⟩ | ⟨⟩ | hitems := h
      rw [valueText, item_texts_eq]
      refine bracket_text_scalar (scalar_text_ascii (by decide)) (scalar_text_ascii (by decide))
        hgap hindent fun part hpart => ?_
      obtain ⟨item, hitem, rfl⟩ := List.mem_map.mp hpart
      exact ih item hitem (hitems item hitem) (hindent.append hgap)
  | object members ih =>
      obtain ⟨⟩ | ⟨⟩ | ⟨⟩ | ⟨⟩ | ⟨⟩ | ⟨⟩ | ⟨-, hmembers⟩ := h
      rw [valueText, member_texts_eq, enumerate_map]
      refine bracket_text_scalar (scalar_text_ascii (by decide)) (scalar_text_ascii (by decide))
        hgap hindent fun part hpart => ?_
      obtain ⟨entry, hentry, rfl⟩ := List.mem_map.mp hpart
      obtain ⟨member, hmember, rfl⟩ := List.mem_map.mp hentry
      have hmem := mem_enumerate.mp hmember
      have hvalue := ih member hmem (hmembers member hmem) (hindent.append hgap)
      exact member_text_scalar hvalue member.1

/-! ## Bytes -/

/-- The bytes of a string in UTF-8. -/
def utf8Bytes (s : JSString) : List UInt8 := encode (toScalars s)

/-- `JSON.parse` of the text that bytes are in UTF-8. -/
def parseJsonBytes (bytes : List UInt8) : Option JsonValue := parseJson (ofScalars (decode bytes))

/-- A value that is printed, encoded, decoded and parsed is what its text shows. -/
theorem parse_json_bytes {gap behind : JSString} {value : JsonValue} (h : IsLanguageValue value)
    (hgap : ∀ c ∈ gap, isJsonSpace c = true) (hbehind : ∀ c ∈ behind, isJsonSpace c = true) :
    parseJsonBytes (utf8Bytes (stringify gap value ++ behind)) = some value.shown := by
  have hspace {space : JSString} (hspace : ∀ c ∈ space, isJsonSpace c = true) :
      IsScalarText space := scalar_text_ascii fun c hc => json_space_ascii (hspace c hc)
  have hscalar : IsScalarText (stringify gap value ++ behind) :=
    (value_text_scalar (hspace hgap) h .nil).append (hspace hbehind)
  rw [parseJsonBytes, utf8Bytes, hscalar.decode_encode, parse_stringify h hgap hbehind]

end Web
