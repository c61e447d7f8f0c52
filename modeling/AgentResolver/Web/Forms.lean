import AgentResolver.Web.HttpUrls
import AgentResolver.Web.ParsedUrls
import AgentResolver.Web.Utf8RoundTrip

/-!
# Form-encoded queries

A list of parameters written as a query, each name and value with `encodeURIComponent`, is read back
from the URL as the same list (`parse_form_text`). The query state of the URL parser may escape more
characters on the way; `IsEscaping` is what the reader makes of any of these texts.
-/

namespace Web

open JavaScript

/-! ## Bytes -/

/-- A byte that is not a percent sign is kept. -/
theorem percent_decode_cons {byte : UInt8} (h : byte ≠ 0x25) (rest : List UInt8) :
    percentDecode (byte :: rest) = byte :: percentDecode rest := by
  cases rest with
  | nil => rfl
  | cons high rest =>
      cases rest with
      | nil => rw [percentDecode, percentDecode]
      | cons low rest =>
          rw [percentDecode]
          split
          · rw [if_neg h]
          · rfl

theorem percent_decode_append {bytes : List UInt8} (h : ∀ byte ∈ bytes, byte ≠ 0x25)
    (rest : List UInt8) : percentDecode (bytes ++ rest) = bytes ++ percentDecode rest := by
  induction bytes with
  | nil => rfl
  | cons byte more ih =>
      rw [List.cons_append, percent_decode_cons (h byte List.mem_cons_self),
        ih fun other hother => h other (List.mem_cons_of_mem _ hother), List.cons_append]

/-- Only the percent sign is encoded with its byte. -/
theorem percent_byte_of_char {c : Char} (h : (0x25 : UInt8) ∈ String.utf8EncodeChar c) :
    c = '%' := by
  have hbyte {n : Nat} (hn : n < 256) (heq : (0x25 : UInt8) = UInt8.ofNat n) : n = 0x25 := by
    rw [← byte_to_nat hn, ← heq]
    rfl
  have hvalid : c.toNat < 0xD800 ∨ (0xDFFF < c.toNat ∧ c.toNat < 0x110000) := c.valid
  have hvalue : c.val.toNat = c.toNat := rfl
  unfold String.utf8EncodeChar at h
  simp only [hvalue] at h
  split at h
  · have hc := hbyte (by omega) (List.mem_singleton.mp h)
    rw [← Char.ofNat_toNat c, hc]
  · exfalso
    split at h
    · simp only [List.mem_cons, List.not_mem_nil, or_false] at h
      rcases h with h | h <;>
        · have := hbyte (by omega) h
          omega
    · split at h
      · simp only [List.mem_cons, List.not_mem_nil, or_false] at h
        rcases h with h | h | h <;>
          · have := hbyte (by omega) h
            omega
      · simp only [List.mem_cons, List.not_mem_nil, or_false] at h
        rcases h with h | h | h | h <;>
          · have := hbyte (by omega) h
            omega

/-- A hexadecimal digit is an ASCII character and reads back as its value. -/
theorem hex_digit_value {n : Nat} (h : n < 16) :
    String.utf8EncodeChar (upperHexDigit n) = [UInt8.ofNat (upperHexDigit n).toNat] ∧
      hexValue (UInt8.ofNat (upperHexDigit n).toNat).toNat = some n :=
  (by decide : ∀ n < 16, String.utf8EncodeChar (upperHexDigit n) =
      [UInt8.ofNat (upperHexDigit n).toNat] ∧
    hexValue (UInt8.ofNat (upperHexDigit n).toNat).toNat = some n) n h

/-- The escape of a byte is decoded as that byte. -/
theorem percent_decode_escape (byte : UInt8) (rest : List UInt8) :
    percentDecode (encode (percentEncodeByte byte) ++ rest) = byte :: percentDecode rest := by
  have hbyte : byte.toNat < 256 := byte.toNat_lt
  obtain ⟨hhigh, hhighValue⟩ := @hex_digit_value (byte.toNat / 16) (by omega)
  obtain ⟨hlow, hlowValue⟩ := @hex_digit_value (byte.toNat % 16) (by omega)
  have hpercent : String.utf8EncodeChar '%' = [0x25] := by decide
  have hencode : encode (percentEncodeByte byte) =
      [0x25, UInt8.ofNat (upperHexDigit (byte.toNat / 16)).toNat,
        UInt8.ofNat (upperHexDigit (byte.toNat % 16)).toNat] := by
    simp only [encode, percentEncodeByte, List.flatMap_cons, List.flatMap_nil, hpercent, hhigh,
      hlow, List.cons_append, List.nil_append]
  rw [hencode, List.cons_append, List.cons_append, List.cons_append, List.nil_append,
    percentDecode, hhighValue, hlowValue]
  dsimp only
  rw [if_pos rfl, show 16 * (byte.toNat / 16) + byte.toNat % 16 = byte.toNat by omega,
    UInt8.ofNat_toNat]

/-- So are the escapes of several bytes. -/
theorem percent_decode_escapes (bytes rest : List UInt8) :
    percentDecode (encode (bytes.flatMap percentEncodeByte) ++ rest) =
      bytes ++ percentDecode rest := by
  induction bytes with
  | nil => rfl
  | cons byte more ih =>
      rw [List.flatMap_cons, encode, List.flatMap_append, List.append_assoc]
      show percentDecode (encode (percentEncodeByte byte) ++
        (encode (more.flatMap percentEncodeByte) ++ rest)) = _
      rw [percent_decode_escape, ih, List.cons_append]

/-! ## Escaped texts -/

/-- The second text is read by the form parser as the first. -/
inductive IsEscaping : ScalarString → ScalarString → Prop where
  | nil : IsEscaping [] []
  | kept {c : Char} {s escaped : ScalarString} (hpercent : c ≠ '%') (hplus : c ≠ '+')
      (h : IsEscaping s escaped) : IsEscaping (c :: s) (c :: escaped)
  | escape {c : Char} {s escaped : ScalarString} (h : IsEscaping s escaped) :
      IsEscaping (c :: s) ((String.utf8EncodeChar c).flatMap percentEncodeByte ++ escaped)

/-- The form parser on one name or value. -/
def unescapeForm (s : ScalarString) : ScalarString :=
  decode (percentDecode (encode (s.map fun c => if c = '+' then ' ' else c)))

variable {s escaped : ScalarString}

/-- Escapes have no plus sign. -/
theorem escapes_without_plus (bytes : List UInt8) :
    (bytes.flatMap percentEncodeByte).map (fun c => if c = '+' then ' ' else c) =
      bytes.flatMap percentEncodeByte := by
  refine (List.map_congr_left fun c hc => ?_).trans (List.map_id _)
  obtain ⟨byte, -, hmem⟩ := List.mem_flatMap.mp hc
  refine if_neg ?_
  rintro rfl
  exact absurd (percent_encode_byte_mem hmem) (by decide)

/-- The form parser reads an escaping as the text that was escaped. -/
theorem IsEscaping.unescape (h : IsEscaping s escaped) : unescapeForm escaped = s := by
  suffices hbytes : percentDecode (encode (escaped.map fun c => if c = '+' then ' ' else c)) =
      encode s by
    rw [unescapeForm, hbytes, decode_encode]
  induction h with
  | nil => rfl
  | @kept c s escaped hpercent hplus _ ih =>
      rw [List.map_cons, if_neg hplus, encode, List.flatMap_cons, percent_decode_append]
      · exact congrArg (String.utf8EncodeChar c ++ ·) ih
      · intro byte hbyte heq
        exact hpercent (percent_byte_of_char (heq ▸ hbyte))
  | @escape c s escaped _ ih =>
      rw [List.map_append, escapes_without_plus, encode, List.flatMap_append]
      show percentDecode (encode ((String.utf8EncodeChar c).flatMap percentEncodeByte) ++
        encode _) = _
      rw [percent_decode_escapes, ih]
      rfl

/-- Escaping more characters, though no percent signs and digits of escapes, changes nothing. -/
theorem IsEscaping.percent_encode {set : Char → Bool}
    (hset : ∀ c ∈ "%0123456789ABCDEF".toList, set c = false) (h : IsEscaping s escaped) :
    IsEscaping s (percentEncode set escaped) := by
  induction h with
  | nil => exact .nil
  | @kept c s escaped hpercent hplus _ ih =>
      rw [percentEncode, List.flatMap_cons]
      split
      · exact .escape ih
      · exact .kept hpercent hplus ih
  | @escape c s escaped _ ih =>
      have hkept : percentEncode set ((String.utf8EncodeChar c).flatMap percentEncodeByte) =
          (String.utf8EncodeChar c).flatMap percentEncodeByte := by
        refine percent_encode_eq_self fun d hd => ?_
        obtain ⟨byte, -, hmem⟩ := List.mem_flatMap.mp hd
        exact hset d (percent_encode_byte_mem hmem)
      rw [percentEncode, List.flatMap_append]
      show IsEscaping _ (percentEncode set _ ++ percentEncode set escaped)
      rw [hkept]
      exact .escape ih

/-- A text whose percent and plus signs are escaped. -/
theorem is_escaping_encode {set : Char → Bool} (hpercent : set '%' = true)
    (hplus : set '+' = true) (s : ScalarString) : IsEscaping s (percentEncode set s) := by
  induction s with
  | nil => exact .nil
  | cons c rest ih =>
      rw [percentEncode, List.flatMap_cons]
      split
      · exact .escape ih
      · rename_i hkept
        refine .kept ?_ ?_ ih
        · rintro rfl
          exact hkept hpercent
        · rintro rfl
          exact hkept hplus

/-! ## Forms -/

/-- A character that `encodeURIComponent` keeps. -/
def isComponentChar (c : Char) : Bool :=
  isAlphaChar c || isDigit c || c ∈ "-_.!~*'()".toList

/-- `encodeURIComponent` of a scalar string. -/
def encodeComponent (s : ScalarString) : ScalarString :=
  percentEncode (fun c => !isComponentChar c) s

/-- A name and a value as a part of a query. -/
def formField (field : ScalarString × ScalarString) : ScalarString :=
  encodeComponent field.1 ++ '=' :: encodeComponent field.2

/-- A list of parameters as a query. -/
def formText (fields : List (ScalarString × ScalarString)) : ScalarString :=
  ['&'].intercalate (fields.map formField)

/-- What is in an encoded component: it is visible, and nothing that separates anything. -/
def inComponentText (c : Char) : Bool := isComponentChar c || c == '%'

theorem component_char_ascii {c : Char} (h : inComponentText c) : isAsciiChar c := by
  simp only [inComponentText, isComponentChar, Bool.or_eq_true, beq_iff_eq,
    decide_eq_true_eq] at h
  rcases h with ((h | h) | h) | rfl
  · exact alpha_char_ascii h
  · exact domain_char_ascii (digit_facts h).1
  · exact (by decide : ∀ c ∈ "-_.!~*'()".toList, isAsciiChar c = true) c h
  · decide

theorem component_char_facts {c : Char} (h : inComponentText c) :
    isC0Control c = false ∧ c ≠ ' ' ∧ c ≠ '&' ∧ c ≠ '=' ∧ c ≠ '#' ∧ c ≠ '?' ∧
      (inSpecialQuerySet c = false ∨ c.toNat = 0x27) := by
  have hall : ∀ n < 0x80, inComponentText (Char.ofNat n) →
      isC0Control (Char.ofNat n) = false ∧ Char.ofNat n ≠ ' ' ∧ Char.ofNat n ≠ '&' ∧
        Char.ofNat n ≠ '=' ∧ Char.ofNat n ≠ '#' ∧ Char.ofNat n ≠ '?' ∧
        (inSpecialQuerySet (Char.ofNat n) = false ∨ (Char.ofNat n).toNat = 0x27) := by
    decide
  exact @ascii_char_induction (fun c => inComponentText c → isC0Control c = false ∧ c ≠ ' ' ∧
    c ≠ '&' ∧ c ≠ '=' ∧ c ≠ '#' ∧ c ≠ '?' ∧
    (inSpecialQuerySet c = false ∨ c.toNat = 0x27)) hall c (component_char_ascii h) h

theorem encode_component_chars (s : ScalarString) :
    ∀ c ∈ encodeComponent s, inComponentText c := by
  refine percent_encode_forall (fun c _ hkept => ?_)
    (by decide : ∀ c ∈ "%0123456789ABCDEF".toList, inComponentText c = true)
  rw [Bool.not_eq_false'] at hkept
  rw [inComponentText, hkept, Bool.true_or]

/-- What the query state makes of a component. -/
theorem query_component (s : ScalarString) :
    unescapeForm (percentEncode inSpecialQuerySet (encodeComponent s)) = s ∧
      ∀ c ∈ percentEncode inSpecialQuerySet (encodeComponent s), c ≠ '&' ∧ c ≠ '=' := by
  constructor
  · have hescaping := @is_escaping_encode (fun c => !isComponentChar c) (by decide) (by decide) s
    exact (hescaping.percent_encode (by decide)).unescape
  · refine percent_encode_forall (fun c hc _ => ?_) (by decide)
    obtain ⟨-, -, hand, hequals, -⟩ := component_char_facts (encode_component_chars s c hc)
    exact ⟨hand, hequals⟩

theorem form_field_chars (field : ScalarString × ScalarString) :
    ∀ c ∈ formField field, inComponentText c ∨ c = '=' := by
  intro c hc
  rcases List.mem_append.mp hc with hc | hc
  · exact Or.inl (encode_component_chars _ c hc)
  · rcases List.mem_cons.mp hc with rfl | hc
    · exact Or.inr rfl
    · exact Or.inl (encode_component_chars _ c hc)

theorem percent_encode_append (set : Char → Bool) (s t : ScalarString) :
    percentEncode set (s ++ t) = percentEncode set s ++ percentEncode set t :=
  List.flatMap_append

theorem percent_encode_cons {set : Char → Bool} {c : Char} (h : set c = false)
    (s : ScalarString) : percentEncode set (c :: s) = c :: percentEncode set s := by
  rw [percentEncode, List.flatMap_cons, if_neg (by simp [h])]
  rfl

/-- A separator that is kept still separates. -/
theorem percent_encode_intercalate {set : Char → Bool} {separator : Char}
    (h : set separator = false) (parts : List ScalarString) :
    percentEncode set ([separator].intercalate parts) =
      [separator].intercalate (parts.map (percentEncode set)) := by
  induction parts with
  | nil => rfl
  | cons part rest ih =>
      cases rest with
      | nil => simp
      | cons next rest =>
          rw [List.intercalate_cons_cons, List.map_cons, List.map_cons, List.intercalate_cons_cons,
            List.append_assoc, percent_encode_append, List.singleton_append,
            percent_encode_cons h, ih, List.append_assoc]
          rfl

/-- The form parser on one field. -/
theorem parse_form_field (field : ScalarString × ScalarString) :
    (unescapeForm ((percentEncode inSpecialQuerySet (formField field)).takeWhile (· != '=')),
      unescapeForm (((percentEncode inSpecialQuerySet (formField field)).dropWhile
        (· != '=')).drop 1)) = field := by
  obtain ⟨hname, hnameChars⟩ := query_component field.1
  obtain ⟨hvalue, -⟩ := query_component field.2
  have hbefore : ∀ c ∈ percentEncode inSpecialQuerySet (encodeComponent field.1),
      (c != '=') = true := fun c hc => bne_iff_ne.mpr (hnameChars c hc).2
  have htake : ∀ rest : ScalarString, ('=' :: rest).takeWhile (fun c => c != '=') = [] :=
    fun _ => rfl
  have hdrop : ∀ rest : ScalarString, ('=' :: rest).dropWhile (fun c => c != '=') = '=' :: rest :=
    fun _ => rfl
  rw [formField, percent_encode_append, percent_encode_cons (by decide),
    List.takeWhile_append_of_pos hbefore, List.dropWhile_append_of_pos hbefore,
    htake, hdrop, List.append_nil, List.drop_one, List.tail_cons, hname, hvalue]

/-- The parameters of a form are read back from the query of a special URL. -/
theorem parse_form_text (fields : List (ScalarString × ScalarString)) :
    parseUrlencoded (percentEncode inSpecialQuerySet (formText fields)) = fields := by
  cases fields with
  | nil => rfl
  | cons field rest =>
      have hsplit : (percentEncode inSpecialQuerySet (formText (field :: rest))).splitOn '&' =
          (field :: rest).map fun field => percentEncode inSpecialQuerySet (formField field) := by
        rw [formText, percent_encode_intercalate (by decide), List.map_map]
        refine List.splitOn_intercalate '&' ?_ (List.cons_ne_nil _ _)
        intro part hpart hmem
        obtain ⟨field, -, rfl⟩ := List.mem_map.mp hpart
        refine @percent_encode_forall inSpecialQuerySet (· ≠ '&') _ (fun c hc _ => ?_) (by decide)
          '&' hmem rfl
        rcases form_field_chars field c hc with hc | rfl
        · exact (component_char_facts hc).2.2.1
        · decide
      unfold parseUrlencoded
      dsimp only
      rw [hsplit, List.filter_eq_self.mpr, List.map_map]
      · exact (List.map_congr_left fun field _ => parse_form_field field).trans (List.map_id _)
      · intro part hpart
        obtain ⟨field, -, rfl⟩ := List.mem_map.mp hpart
        rw [Bool.not_eq_true', List.isEmpty_eq_false_iff]
        intro hempty
        exact List.append_ne_nil_of_right_ne_nil _ (List.cons_ne_nil _ _)
          (percent_encode_eq_nil hempty)

/-! ## Queries of URLs -/

theorem form_text_chars (fields : List (ScalarString × ScalarString)) :
    ∀ c ∈ formText fields, isC0Control c = false ∧ c ≠ ' ' ∧ c ≠ '#' := by
  have hkept : ∀ field, ∀ c ∈ formField field, isC0Control c = false ∧ c ≠ ' ' ∧ c ≠ '#' := by
    intro field c hc
    rcases form_field_chars field c hc with hc | rfl
    · obtain ⟨hcontrol, hspace, -, -, hfragment, -⟩ := component_char_facts hc
      exact ⟨hcontrol, hspace, hfragment⟩
    · decide
  induction fields with
  | nil => exact fun c hc => absurd hc List.not_mem_nil
  | cons field rest ih =>
      cases rest with
      | nil =>
          rw [formText, List.map_singleton, List.intercalate_singleton]
          exact hkept field
      | cons next rest =>
          intro c hc
          rw [formText, List.map_cons, List.map_cons, List.intercalate_cons_cons, List.mem_append,
            List.mem_append, List.mem_singleton] at hc
          rcases hc with (hc | rfl) | hc
          · exact hkept field c hc
          · decide
          · exact ih c hc

/-- A path of plain segments with a query and no fragment. -/
theorem parse_path_query {url : Url} (hscheme : url.scheme ∈ httpSchemes)
    {path query : ScalarString} (hpath : ∀ c ∈ path, inPathSet c = false)
    (hplain : ∀ segment ∈ path.splitOnP (isSlash true), isPlainSegment segment)
    (hquery : '#' ∉ query) :
    parsePath url [] (path ++ '?' :: query) =
      url.withTail (.segments (path.splitOnP (isSlash true)))
        (some (percentEncode inSpecialQuerySet query)) url.fragment := by
  have hspecial : url.isSpecial = true := http_is_special hscheme
  have hmark : ∀ c ∈ path, (c != '?' && c != '#') = true := by
    intro c hc
    have hkept := hpath c hc
    rw [Bool.and_eq_true, bne_iff_ne, bne_iff_ne]
    constructor <;>
      · rintro rfl
        cases hkept
  have hset (path : UrlPath) : Url.isSpecial { url with path := path } = true := hspecial
  have htake : ('?' :: query).takeWhile (fun c => c != '?' && c != '#') = [] := rfl
  have hdrop : ('?' :: query).dropWhile (fun c => c != '?' && c != '#') = '?' :: query := rfl
  have hwhole : ∀ c ∈ query, (c != '#') = true := by
    intro c hc
    rw [bne_iff_ne]
    rintro rfl
    exact hquery hc
  unfold parsePath
  dsimp only
  rw [List.takeWhile_append_of_pos hmark, List.dropWhile_append_of_pos hmark, htake, hdrop,
    List.append_nil, hspecial, walk_path_plain (http_ne_file hscheme) hplain, List.nil_append,
    parseAfterPath, if_pos rfl, parseQuery, List.takeWhile_eq_self_iff.mpr hwhole,
    List.dropWhile_eq_nil_iff.mpr hwhole]
  dsimp only
  rw [if_pos (hset _)]
  rfl

/-- The parameters of a URL whose query is a form are those of the form. -/
theorem search_param_form {url : Url} {fields : List (ScalarString × ScalarString)}
    (h : url.query = some (percentEncode inSpecialQuerySet (formText fields)))
    (name : ScalarString) :
    url.searchParam (ofScalars name) = (fields.lookup name).map ofScalars := by
  rw [Url.searchParam, h, Option.getD_some, parse_form_text, to_scalars_of_scalars]

end Web
