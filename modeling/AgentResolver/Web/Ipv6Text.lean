import AgentResolver.Web.HostNames
import Mathlib.Data.List.TakeWhile

/-!
# Texts of numbers and IPv6 addresses

A numeral is read back as its number (`digits_value_to_digits`), and the text of an IPv6 address,
with its longest run of zero pieces left out, is read back as its pieces (`parse_serialize_ipv6`).
-/

namespace Web

/-! ## Numerals -/

variable {radix : Nat}

/-- The value of a numeral with one more digit. -/
theorem digits_value_snoc (digits : ScalarString) (c : Char) :
    digitsValue radix (digits ++ [c]) =
      (digitsValue radix digits).bind fun value =>
        (hexValue c.toNat).bind fun digit =>
          if digit < radix then some (value * radix + digit) else none := by
  simp only [digitsValue, List.foldl_append, List.foldl_cons, List.foldl_nil]
  cases digits.foldl _ (some 0) with
  | none => rfl
  | some value =>
      cases hexValue c.toNat with
      | none => rfl
      | some digit => rfl

/-- A numeral has a value below the power of the radix that its length names. -/
theorem digits_value_lt {digits : ScalarString} {value : Nat}
    (h : digitsValue radix digits = some value) : value < radix ^ digits.length := by
  induction digits using List.reverseRecOn generalizing value with
  | nil =>
      obtain rfl : 0 = value := Option.some.inj h
      exact Nat.one_pos
  | append_singleton digits c ih =>
      rw [digits_value_snoc] at h
      obtain ⟨start, hstart, h⟩ := Option.bind_eq_some_iff.mp h
      obtain ⟨digit, -, h⟩ := Option.bind_eq_some_iff.mp h
      split at h
      · rename_i hdigit
        obtain rfl := Option.some.inj h
        rw [List.length_append, List.length_singleton]
        calc start * radix + digit < start * radix + radix := by omega
          _ = (start + 1) * radix := by ring
          _ ≤ radix ^ digits.length * radix := Nat.mul_le_mul_right _ (ih hstart)
          _ = radix ^ (digits.length + 1) := by ring
      · cases h

/-- The value of the character of a digit. -/
theorem hex_value_digit_char {digit : Nat} (h : digit < 16) :
    hexValue (Nat.digitChar digit).toNat = some digit :=
  (by decide : ∀ digit < 16, hexValue (Nat.digitChar digit).toNat = some digit) digit h

/-- A numeral is read back as its number. -/
theorem digits_value_to_digits (hradix : 1 < radix) (hhex : radix ≤ 16) (n : Nat) :
    digitsValue radix (Nat.toDigits radix n) = some n := by
  induction n using Nat.strongRecOn with
  | ind n ih =>
      rw [Nat.toDigits_eq_if hradix]
      by_cases hsmall : n < radix
      · have hsnoc := @digits_value_snoc radix [] (Nat.digitChar n)
        rw [List.nil_append, hex_value_digit_char (by omega)] at hsnoc
        rw [if_pos hsmall, hsnoc]
        show (if n < radix then some (0 * radix + n) else none) = _
        rw [if_pos hsmall, Nat.zero_mul, Nat.zero_add]
      · have hlast : n % radix < radix := Nat.mod_lt n (by omega)
        rw [if_neg hsmall, digits_value_snoc, ih (n / radix) (Nat.div_lt_self (by omega) hradix),
          hex_value_digit_char (by omega)]
        show (if n % radix < radix then some (n / radix * radix + n % radix) else none) = _
        rw [if_pos hlast, Nat.div_add_mod']

/-- A numeral consists of digit characters. -/
theorem mem_to_digits (hradix : 1 < radix) {n : Nat} {c : Char} (h : c ∈ Nat.toDigits radix n) :
    ∃ digit < radix, c = Nat.digitChar digit := by
  induction n using Nat.strongRecOn with
  | ind n ih =>
      rw [Nat.toDigits_eq_if hradix] at h
      by_cases hsmall : n < radix
      · rw [if_pos hsmall, List.mem_singleton] at h
        exact ⟨n, hsmall, h⟩
      · rw [if_neg hsmall, List.mem_append, List.mem_singleton] at h
        rcases h with h | h
        · exact ih (n / radix) (Nat.div_lt_self (by omega) hradix) h
        · exact ⟨n % radix, Nat.mod_lt n (by omega), h⟩

/-- A decimal numeral consists of decimal digits. -/
theorem decimal_is_digit {n : Nat} {c : Char} (h : c ∈ Nat.toDigits 10 n) : isDigit c := by
  obtain ⟨digit, hdigit, rfl⟩ := mem_to_digits (by decide) h
  exact (by decide : ∀ digit < 10, isDigit (Nat.digitChar digit) = true) digit hdigit

/-- A hexadecimal numeral has neither colons nor dots, and no other character that a host may not
have. -/
theorem hex_is_domain_char {n : Nat} {c : Char} (h : c ∈ Nat.toDigits 16 n) :
    isDomainChar c ∧ c ≠ '.' := by
  obtain ⟨digit, hdigit, rfl⟩ := mem_to_digits (by decide) h
  exact (by decide : ∀ digit < 16, isDomainChar (Nat.digitChar digit) = true ∧
    Nat.digitChar digit ≠ '.') digit hdigit

/-! ## Pieces -/

/-- Eight pieces of sixteen bits. -/
structure IsIpv6 (pieces : List Nat) : Prop where
  length : pieces.length = 8
  small : ∀ piece ∈ pieces, piece < 0x10000

theorem parse_ipv6_piece_lt {digits : ScalarString} {piece : Nat}
    (h : parseIpv6Piece digits = some piece) : piece < 0x10000 := by
  rw [parseIpv6Piece] at h
  split at h
  · cases h
  · rename_i hlength
    simp only [Bool.or_eq_true, decide_eq_true_eq, not_or, Nat.not_lt] at hlength
    calc piece < 16 ^ digits.length := digits_value_lt h
      _ ≤ 16 ^ 4 := Nat.pow_le_pow_right (by decide) hlength.2

/-- A hexadecimal numeral of sixteen bits is read back. -/
theorem parse_ipv6_piece_text {piece : Nat} (h : piece < 0x10000) :
    parseIpv6Piece (Nat.toDigits 16 piece) = some piece := by
  have hlength : (Nat.toDigits 16 piece).length ≤ 4 :=
    (Nat.length_toDigits_le_iff (by decide) (by decide)).mpr h
  have hguard : ((Nat.toDigits 16 piece).isEmpty ||
      decide ((Nat.toDigits 16 piece).length > 4)) = false := by
    simp [hlength]
  rw [parseIpv6Piece, hguard]
  exact digits_value_to_digits (by decide) (by decide) piece

/-- What holds of every result of a function holds of the results along a list. -/
theorem map_m_forall {α β : Type} {f : α → Option β} {p : β → Prop}
    (hf : ∀ x y, f x = some y → p y) {xs : List α} {ys : List β} (h : xs.mapM f = some ys) :
    ∀ y ∈ ys, p y := by
  induction xs generalizing ys with
  | nil =>
      obtain rfl : [] = ys := Option.some.inj h
      intro y hy
      cases hy
  | cons x rest ih =>
      rw [List.mapM_cons] at h
      obtain ⟨first, hfirst, h⟩ := Option.bind_eq_some_iff.mp h
      obtain ⟨more, hmore, h⟩ := Option.bind_eq_some_iff.mp h
      obtain rfl : first :: more = ys := Option.some.inj h
      intro y hy
      rcases List.mem_cons.mp hy with rfl | hy
      · exact hf x y hfirst
      · exact ih hmore y hy

/-- The two pieces of a dotted-decimal tail. -/
theorem parse_ipv4_in_ipv6_lt {input : ScalarString} {pieces : List Nat}
    (h : parseIpv4InIpv6 input = some pieces) : ∀ piece ∈ pieces, piece < 0x10000 := by
  unfold parseIpv4InIpv6 at h
  dsimp only at h
  split at h
  · rename_i a b c d hbytes
    obtain rfl := Option.some.inj h
    have hbyte : ∀ n ∈ [a, b, c, d], n ≤ 255 := by
      refine map_m_forall (fun digits n hn => ?_) hbytes
      split at hn
      · cases hn
      · split at hn
        · split at hn
          · obtain rfl := Option.some.inj hn
            assumption
          · cases hn
        · cases hn
    have ha := hbyte a (by simp)
    have hb := hbyte b (by simp)
    have hc := hbyte c (by simp)
    have hd := hbyte d (by simp)
    intro piece hpiece
    simp only [List.mem_cons, List.not_mem_nil, or_false] at hpiece
    rcases hpiece with rfl | rfl <;> omega
  · cases h

theorem parse_ipv6_pieces_cons (first second : ScalarString) (rest : List ScalarString) :
    parseIpv6Pieces (first :: second :: rest) =
      (parseIpv6Piece first).bind fun piece =>
        (parseIpv6Pieces (second :: rest)).bind fun more => some (piece :: more) := rfl

/-- The pieces that are read have sixteen bits. -/
theorem parse_ipv6_pieces_lt {texts : List ScalarString} {pieces : List Nat}
    (h : parseIpv6Pieces texts = some pieces) : ∀ piece ∈ pieces, piece < 0x10000 := by
  induction texts generalizing pieces with
  | nil =>
      obtain rfl : [] = pieces := Option.some.inj h
      intro piece hpiece
      cases hpiece
  | cons first rest ih =>
      cases rest with
      | nil =>
          rw [parseIpv6Pieces] at h
          split at h
          · exact parse_ipv4_in_ipv6_lt h
          · obtain ⟨piece, hpiece, rfl⟩ := Option.map_eq_some_iff.mp h
            intro other hother
            rw [List.mem_singleton.mp hother]
            exact parse_ipv6_piece_lt hpiece
      | cons second rest =>
          rw [parse_ipv6_pieces_cons] at h
          obtain ⟨piece, hpiece, h⟩ := Option.bind_eq_some_iff.mp h
          obtain ⟨more, hmore, h⟩ := Option.bind_eq_some_iff.mp h
          obtain rfl : piece :: more = pieces := Option.some.inj h
          intro other hother
          rcases List.mem_cons.mp hother with rfl | hother
          · exact parse_ipv6_piece_lt hpiece
          · exact ih hmore other hother

theorem parse_ipv6_side_lt {side : ScalarString} {pieces : List Nat}
    (h : parseIpv6Side side = some pieces) : ∀ piece ∈ pieces, piece < 0x10000 := by
  rw [parseIpv6Side] at h
  split at h
  · obtain rfl : [] = pieces := Option.some.inj h
    intro piece hpiece
    cases hpiece
  · exact parse_ipv6_pieces_lt h

/-- What the parser returns is an address. -/
theorem parse_ipv6_is_ipv6 {input : ScalarString} {pieces : List Nat}
    (h : parseIpv6 input = some pieces) : IsIpv6 pieces := by
  unfold parseIpv6 at h
  split at h
  · split at h
    · rename_i read hread
      split at h
      · rename_i hlength
        obtain rfl := Option.some.inj h
        exact ⟨hlength, parse_ipv6_pieces_lt hread⟩
      · cases h
    · cases h
  · split at h
    · cases h
    · split at h
      · rename_i left right hleft hright
        split at h
        · rename_i hlength
          obtain rfl := Option.some.inj h
          constructor
          · simp only [List.length_append, List.length_replicate]
            omega
          · intro piece hpiece
            simp only [List.mem_append, List.mem_replicate] at hpiece
            rcases hpiece with (hpiece | ⟨-, rfl⟩) | hpiece
            · exact parse_ipv6_side_lt hleft piece hpiece
            · decide
            · exact parse_ipv6_side_lt hright piece hpiece
        · cases h
      · cases h

/-! ## The text of an address -/

/-- Pieces in hexadecimal, separated by colons. -/
def hexText (pieces : List Nat) : ScalarString := [':'].intercalate (pieces.map (Nat.toDigits 16))

theorem hex_text_cons (piece next : Nat) (rest : List Nat) :
    hexText (piece :: next :: rest) = Nat.toDigits 16 piece ++ ':' :: hexText (next :: rest) := by
  simp [hexText, List.intercalate]

theorem hex_text_singleton (piece : Nat) : hexText [piece] = Nat.toDigits 16 piece := by
  simp [hexText, List.intercalate]

theorem hex_ne_colon {n : Nat} {c : Char} (h : c ∈ Nat.toDigits 16 n) : c ≠ ':' :=
  domain_char_ne (hex_is_domain_char h).1 (by decide)

/-- A text of pieces has hexadecimal digits and colons. -/
theorem mem_hex_text {pieces : List Nat} {c : Char} (h : c ∈ hexText pieces) :
    c = ':' ∨ ∃ n, c ∈ Nat.toDigits 16 n := by
  induction pieces with
  | nil => cases h
  | cons piece rest ih =>
      cases rest with
      | nil =>
          rw [hex_text_singleton] at h
          exact Or.inr ⟨piece, h⟩
      | cons next rest =>
          rw [hex_text_cons, List.mem_append, List.mem_cons] at h
          rcases h with h | h | h
          · exact Or.inr ⟨piece, h⟩
          · exact Or.inl h
          · exact ih h

theorem hex_text_no_dot {pieces : List Nat} : (hexText pieces).contains '.' = false := by
  rw [List.contains_eq_mem, decide_eq_false_iff_not]
  intro hmem
  rcases mem_hex_text hmem with hcolon | ⟨n, hn⟩
  · cases hcolon
  · exact (hex_is_domain_char hn).2 rfl

/-- The first character of a text of pieces is a digit. -/
theorem head_hex_text (piece : Nat) (rest : List Nat) :
    ∃ c text, hexText (piece :: rest) = c :: text ∧ c ≠ ':' := by
  cases hdigits : Nat.toDigits 16 piece with
  | nil => exact absurd hdigits Nat.toDigits_ne_nil
  | cons c digits =>
      have hc : c ≠ ':' := hex_ne_colon (hdigits ▸ List.mem_cons_self : c ∈ Nat.toDigits 16 piece)
      cases rest with
      | nil => exact ⟨c, digits, by rw [hex_text_singleton, hdigits], hc⟩
      | cons next rest =>
          refine ⟨c, digits ++ ':' :: hexText (next :: rest), ?_, hc⟩
          rw [hex_text_cons, hdigits]
          rfl

/-! ## Reading the text of an address -/

/-- The pieces of a text of pieces. -/
theorem parse_ipv6_pieces_text {pieces : List Nat} (h : ∀ piece ∈ pieces, piece < 0x10000) :
    parseIpv6Pieces (pieces.map (Nat.toDigits 16)) = some pieces := by
  induction pieces with
  | nil => rfl
  | cons piece rest ih =>
      have hpiece := parse_ipv6_piece_text (h piece (by simp))
      have hrest := ih fun other hother => h other (List.mem_cons_of_mem _ hother)
      cases rest with
      | nil =>
          have hdot : (Nat.toDigits 16 piece).contains '.' = false := by
            rw [← hex_text_singleton]
            exact hex_text_no_dot
          rw [List.map_cons, List.map_nil, parseIpv6Pieces, hdot, hpiece]
          rfl
      | cons next rest =>
          rw [List.map_cons] at hrest
          rw [List.map_cons, List.map_cons, parse_ipv6_pieces_cons, hpiece, hrest]
          rfl

/-- A text of pieces is split at its colons. -/
theorem split_hex_text {pieces : List Nat} (h : pieces ≠ []) :
    (hexText pieces).splitOn ':' = pieces.map (Nat.toDigits 16) := by
  rw [hexText, List.splitOn_intercalate]
  · intro text htext hcolon
    obtain ⟨piece, -, rfl⟩ := List.mem_map.mp htext
    exact hex_ne_colon hcolon rfl
  · simpa using h

/-- One side of a `::` is read back, also an empty one. -/
theorem parse_ipv6_side_text {pieces : List Nat} (h : ∀ piece ∈ pieces, piece < 0x10000) :
    parseIpv6Side (hexText pieces) = some pieces := by
  cases pieces with
  | nil => rfl
  | cons piece rest =>
      obtain ⟨c, text, htext, -⟩ := head_hex_text piece rest
      rw [parseIpv6Side, if_neg (by simp [htext]), split_hex_text (List.cons_ne_nil _ _),
        parse_ipv6_pieces_text h]

/-- Where no `::` starts, the search for one goes on. -/
theorem split_compress_cons {c : Char} {rest : ScalarString}
    (h : c ≠ ':' ∨ rest.head? ≠ some ':') :
    splitAtCompress (c :: rest) =
      (splitAtCompress rest).map fun sides => (c :: sides.1, sides.2) := by
  rw [splitAtCompress]
  rintro after rfl rfl
  rcases h with hc | hhead
  · exact hc rfl
  · exact hhead rfl

/-- No `::` starts in a text without colons. -/
theorem split_compress_append {start : ScalarString} (h : ∀ c ∈ start, c ≠ ':')
    (rest : ScalarString) :
    splitAtCompress (start ++ rest) =
      (splitAtCompress rest).map fun sides => (start ++ sides.1, sides.2) := by
  induction start with
  | nil => exact (congrFun Option.map_id _).symm
  | cons c start ih =>
      rw [List.cons_append, split_compress_cons (Or.inl (h c (by simp))),
        ih fun d hd => h d (List.mem_cons_of_mem _ hd), Option.map_map]
      rfl

/-- No `::` starts in a text of pieces. -/
theorem split_compress_hex (piece : Nat) (rest : List Nat) (tail : ScalarString) :
    splitAtCompress (hexText (piece :: rest) ++ tail) =
      (splitAtCompress tail).map fun sides =>
        (hexText (piece :: rest) ++ sides.1, sides.2) := by
  induction rest generalizing piece with
  | nil =>
      rw [hex_text_singleton]
      exact split_compress_append (fun c hc => hex_ne_colon hc) tail
  | cons next rest ih =>
      obtain ⟨c, text, htext, hc⟩ := head_hex_text next rest
      have hcolon : (hexText (next :: rest) ++ tail).head? ≠ some ':' := by
        rw [htext]
        exact fun h => hc (Option.some.inj h)
      rw [hex_text_cons, List.append_assoc, split_compress_append (fun c hc => hex_ne_colon hc),
        List.cons_append, split_compress_cons (Or.inr hcolon), ih, Option.map_map, Option.map_map]
      refine congrArg (fun f => (splitAtCompress tail).map f) (funext fun sides => ?_)
      simp

/-- The sides of a `::` between texts of pieces. -/
theorem split_compress_text (left : List Nat) (after : ScalarString) :
    splitAtCompress (hexText left ++ "::".toList ++ after) = some (hexText left, after) := by
  cases left with
  | nil => rfl
  | cons piece rest =>
      rw [List.append_assoc, split_compress_hex]
      show some (hexText (piece :: rest) ++ [], after) = _
      rw [List.append_nil]

/-- The run of zeros that is left out has at least two pieces. -/
theorem compress_index_run {pieces : List Nat} {i : Nat} (h : compressIndex pieces = some i) :
    2 ≤ zeroRun (pieces.drop i) := by
  unfold compressIndex at h
  dsimp only at h
  split at h
  · cases h
  · rename_i hlong
    obtain ⟨hi, hrun, -⟩ := List.idxOf?_eq_some_iff.mp h
    rw [List.getElem_map, List.getElem_range] at hrun
    rw [hrun]
    omega

/-- The text of an address is read back as its pieces. -/
theorem parse_serialize_ipv6 {pieces : List Nat} (h : IsIpv6 pieces) :
    parseIpv6 (serializeIpv6 pieces) = some pieces := by
  unfold serializeIpv6
  cases hindex : compressIndex pieces with
  | none =>
      cases pieces with
      | nil => cases h.length
      | cons piece rest =>
          have hsplit : splitAtCompress (hexText (piece :: rest)) = none := by
            have hhex := split_compress_hex piece rest []
            rwa [List.append_nil] at hhex
          show parseIpv6 (hexText (piece :: rest)) = _
          rw [parseIpv6, hsplit, split_hex_text (List.cons_ne_nil _ _),
            parse_ipv6_pieces_text h.small]
          exact if_pos h.length
  | some i =>
      -- The pieces are those on the left, the zeros that are left out and those on the right.
      have hrun := compress_index_run hindex
      have hzeros : (pieces.drop i).takeWhile (· == 0) =
          List.replicate (zeroRun (pieces.drop i)) 0 := by
        refine List.eq_replicate_iff.mpr ⟨rfl, fun piece hpiece => ?_⟩
        simpa using List.mem_takeWhile_imp hpiece
      have hparts : pieces.take i ++ (List.replicate (zeroRun (pieces.drop i)) 0 ++
          (pieces.drop i).dropWhile (· == 0)) = pieces := by
        rw [← hzeros, List.takeWhile_append_dropWhile, List.take_append_drop]
      have hlength := congrArg List.length hparts
      rw [List.length_append, List.length_append, List.length_replicate, h.length] at hlength
      have hleft : parseIpv6Side (hexText (pieces.take i)) = some (pieces.take i) :=
        parse_ipv6_side_text fun piece hpiece => h.small piece (List.mem_of_mem_take hpiece)
      have hright : parseIpv6Side (hexText ((pieces.drop i).dropWhile (· == 0))) =
          some ((pieces.drop i).dropWhile (· == 0)) :=
        parse_ipv6_side_text fun piece hpiece =>
          h.small piece (List.mem_of_mem_drop ((List.dropWhile_sublist _).mem hpiece))
      show parseIpv6 (hexText (pieces.take i) ++ "::".toList ++
        hexText ((pieces.drop i).dropWhile (· == 0))) = _
      rw [parseIpv6, split_compress_text]
      dsimp only
      rw [hex_text_no_dot, hleft, hright]
      dsimp only
      rw [if_neg Bool.false_ne_true, if_pos (by omega)]
      have hmissing : 8 - (pieces.take i).length -
          ((pieces.drop i).dropWhile (· == 0)).length = zeroRun (pieces.drop i) := by
        omega
      rw [hmissing, List.append_assoc, hparts]

end Web
