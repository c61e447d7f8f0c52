import AgentResolver.JavaScript.Doubles

/-!
# Numbers as texts

How the language prints a number and reads it again. The printed decimal has as few digits as a
decimal that stands for the number can have, and is written with an exponent when it is very large
or very small (`numberText`). `readDecimal` reads an unsigned decimal literal; the grammar of JSON
restricts it further (`jsonNumber`). A printed number is read back: `json_number_text`.
-/

namespace JavaScript

/-! ## Natural numbers -/

def decimalText (n : Nat) : JSString := (Nat.toDigits 10 n).map unit

/-- The number that decimal digits stand for. -/
def decimalValue (digits : JSString) : Nat :=
  digits.foldl (fun value c => 10 * value + (c.toNat - 0x30)) 0

theorem decimal_value_snoc (digits : JSString) (c : CodeUnit) :
    decimalValue (digits ++ [c]) = 10 * decimalValue digits + (c.toNat - 0x30) := by
  rw [decimalValue, List.foldl_append]
  rfl

theorem decimal_text_eq (n : Nat) :
    decimalText n =
      if n < 10 then [unit (Nat.digitChar n)]
      else decimalText (n / 10) ++ [unit (Nat.digitChar (n % 10))] := by
  rw [decimalText, Nat.toDigits_eq_if (by decide)]
  split
  · rfl
  · rw [List.map_append]
    rfl

theorem digit_unit {digit : Nat} (h : digit < 10) :
    isAsciiDigit (unit (Nat.digitChar digit)) = true ∧
      (unit (Nat.digitChar digit)).toNat - 0x30 = digit ∧
      (unit (Nat.digitChar digit) = unit '0' → digit = 0) :=
  (by decide : ∀ digit < 10, isAsciiDigit (unit (Nat.digitChar digit)) = true ∧
    (unit (Nat.digitChar digit)).toNat - 0x30 = digit ∧
    (unit (Nat.digitChar digit) = unit '0' → digit = 0)) digit h

/-- A printed number is read back. -/
@[simp] theorem decimal_value_text (n : Nat) : decimalValue (decimalText n) = n := by
  induction n using Nat.strongRecOn with
  | ind n ih =>
      rw [decimal_text_eq]
      split
      · rename_i hsmall
        show 10 * 0 + ((unit (Nat.digitChar n)).toNat - 0x30) = n
        have hvalue := (digit_unit hsmall).2.1
        omega
      · rename_i hlarge
        have hvalue := (digit_unit (Nat.mod_lt n (by decide : 10 > 0))).2.1
        rw [decimal_value_snoc, ih (n / 10) (by omega), hvalue]
        omega

theorem decimal_text_digits {n : Nat} {c : CodeUnit} (h : c ∈ decimalText n) :
    isAsciiDigit c = true := by
  induction n using Nat.strongRecOn with
  | ind n ih =>
      rw [decimal_text_eq] at h
      split at h
      · rename_i hsmall
        rw [List.mem_singleton.mp h]
        exact (digit_unit hsmall).1
      · rename_i hlarge
        rcases List.mem_append.mp h with h | h
        · exact ih (n / 10) (by omega) h
        · rw [List.mem_singleton.mp h]
          exact (digit_unit (Nat.mod_lt n (by decide))).1

/-- A positive number is printed without a zero in front. -/
theorem decimal_text_head {n : Nat} (h : n ≠ 0) :
    ∃ c rest, decimalText n = c :: rest ∧ c ≠ unit '0' := by
  induction n using Nat.strongRecOn with
  | ind n ih =>
      rw [decimal_text_eq]
      split
      · rename_i hsmall
        exact ⟨_, [], rfl, fun hzero => h ((digit_unit hsmall).2.2 hzero)⟩
      · rename_i hlarge
        obtain ⟨c, rest, htext, hc⟩ := ih (n / 10) (by omega) (by omega)
        exact ⟨c, rest ++ [_], by rw [htext, List.cons_append], hc⟩

def zeros (count : Nat) : JSString := List.replicate count (unit '0')

/-- Zeros behind the digits multiply by a power of ten. -/
theorem decimal_value_zeros (digits : JSString) (count : Nat) :
    decimalValue (digits ++ zeros count) = decimalValue digits * 10 ^ count := by
  induction count with
  | zero => rw [zeros, List.replicate_zero, List.append_nil, Nat.pow_zero, Nat.mul_one]
  | succ count ih =>
      rw [zeros, List.replicate_succ', ← List.append_assoc, decimal_value_snoc, ← zeros, ih,
        show (unit '0').toNat - 0x30 = 0 from rfl, Nat.pow_succ]
      ring

/-- Zeros in front of the digits change nothing. -/
theorem zeros_decimal_value (count : Nat) (digits : JSString) :
    decimalValue (zeros count ++ digits) = decimalValue digits := by
  induction count with
  | zero => rfl
  | succ count ih => exact ih

/-! ## The shortest decimal -/

/-- The number `digits * 10 ^ exponent`. -/
structure Decimal where
  digits : Nat
  exponent : Int

def Decimal.value (decimal : Decimal) : Rat := decimal.digits * 10 ^ decimal.exponent

/-- The decimal with this exponent that is nearest to `x`. -/
def nearestDecimal (x : Rat) (exponent : Int) : Decimal :=
  ⟨(roundHalfEven (x / 10 ^ exponent)).toNat, exponent⟩

/-- The decimals with this exponent around `x`, the nearest one first. -/
def nextDecimals (x : Rat) (exponent : Int) : List Decimal :=
  let below := ⌊x / 10 ^ exponent⌋.toNat
  [nearestDecimal x exponent, ⟨below, exponent⟩, ⟨below + 1, exponent⟩]

/-- The decimal is read as `x`. -/
def Decimal.standsFor (x : Rat) (decimal : Decimal) : Bool := toDouble decimal.value = .finite x

/-- The search for a decimal that stands for `x`, from the given exponent downwards. At the last
exponent the nearest decimal is `x` itself. -/
def searchDecimal (x : Rat) : Nat → Int → Decimal
  | 0, exponent => nearestDecimal x exponent
  | fuel + 1, exponent =>
      ((nextDecimals x exponent).find? (Decimal.standsFor x)).getD
        (searchDecimal x fuel (exponent - 1))

/-- The decimal with the fewest digits that stands for a positive double. -/
def shortestDecimal (x : Rat) : Decimal :=
  searchDecimal x (Int.log 10 x + 1074).toNat (Int.log 10 x)

/-- Below the smallest place of all doubles, a double has no digits. -/
theorem IsDouble.scaled_int {x : Rat} (h : IsDouble x) {exponent : Int}
    (hexponent : exponent ≤ -1074) : ∃ n : Int, x / 10 ^ exponent = n := by
  obtain ⟨m, -, hm, -⟩ := h.multiple
  obtain ⟨twos, htwos⟩ := Int.le.dest (hexponent.trans (last_place_ge x))
  obtain ⟨fives, hfives⟩ := Int.eq_ofNat_of_zero_le (show 0 ≤ -exponent by omega)
  refine ⟨m * 2 ^ twos * 5 ^ fives, ?_⟩
  have hten : ((10 : Rat) ^ exponent)⁻¹ = 2 ^ (-exponent) * 5 ^ (-exponent) := by
    rw [← zpow_neg, ← mul_zpow]
    norm_num
  have hplace : (2 : Rat) ^ lastPlace x * 2 ^ (-exponent) = 2 ^ twos := by
    rw [← zpow_add₀ (by norm_num), show lastPlace x + -exponent = twos by omega, zpow_natCast]
  calc x / 10 ^ exponent
      = m * 2 ^ lastPlace x * (2 ^ (-exponent) * 5 ^ (-exponent)) := by
        rw [div_eq_mul_inv, hten, ← hm]
    _ = m * (2 ^ lastPlace x * 2 ^ (-exponent)) * 5 ^ (-exponent) := by ring
    _ = ((m * 2 ^ twos * 5 ^ fives : Int) : Rat) := by
        rw [hplace, hfives, zpow_natCast]
        push_cast
        rfl

/-- At the last exponent the nearest decimal is the number. -/
theorem nearest_decimal_value {x : Rat} (hx : 0 < x) (hdouble : IsDouble x) {exponent : Int}
    (hexponent : exponent ≤ -1074) : (nearestDecimal x exponent).value = x := by
  obtain ⟨n, hn⟩ := hdouble.scaled_int hexponent
  have hten : (0 : Rat) < 10 ^ exponent := zpow_pos (by norm_num) _
  have hpos : (0 : Rat) ≤ n := hn ▸ (div_pos hx hten).le
  obtain ⟨digits, rfl⟩ := Int.eq_ofNat_of_zero_le (by exact_mod_cast hpos : 0 ≤ n)
  rw [nearestDecimal, Decimal.value, hn, round_half_even_int, Int.toNat_natCast]
  rw [Int.cast_natCast] at hn
  rw [← hn, div_mul_cancel₀ _ hten.ne']

/-- The decimal that is found stands for the number. -/
theorem search_decimal_value {x : Rat} (hx : 0 < x) (hdouble : IsDouble x) :
    ∀ (fuel : Nat) (exponent : Int), exponent - fuel ≤ -1074 →
      (searchDecimal x fuel exponent).standsFor x = true := by
  intro fuel
  induction fuel with
  | zero =>
      intro exponent hexponent
      refine decide_eq_true ?_
      rw [searchDecimal, nearest_decimal_value hx hdouble (by simpa using hexponent)]
      exact hdouble
  | succ fuel ih =>
      intro exponent hexponent
      rw [searchDecimal]
      cases hfound : (nextDecimals x exponent).find? (Decimal.standsFor x) with
      | none => exact ih _ (by push_cast at hexponent; omega)
      | some decimal => exact List.find?_some hfound

theorem shortest_decimal_value {x : Rat} (hx : 0 < x) (hdouble : IsDouble x) :
    toDouble (shortestDecimal x).value = .finite x :=
  of_decide_eq_true (search_decimal_value hx hdouble _ _ (by omega))

/-! ## Printing -/

/-- The decimal `0.d₁d₂… * 10 ^ point`, written out or with an exponent. -/
def formatDecimal (digits : JSString) (point : Int) : JSString :=
  let count : Int := digits.length
  if count ≤ point ∧ point ≤ 21 then digits ++ zeros (point - count).toNat
  else if 0 < point ∧ point ≤ 21 then
    digits.take point.toNat ++ unit '.' :: digits.drop point.toNat
  else if -6 < point ∧ point ≤ 0 then text "0." ++ zeros (-point).toNat ++ digits
  else
    let mantissa := if count = 1 then digits else digits.take 1 ++ unit '.' :: digits.drop 1
    let sign := if point - 1 < 0 then unit '-' else unit '+'
    mantissa ++ unit 'e' :: sign :: decimalText (point - 1).natAbs

/-- The text of a positive double. -/
def positiveText (x : Rat) : JSString :=
  let decimal := shortestDecimal x
  let digits := (decimalText decimal.digits).rdropWhile (· == unit '0')
  formatDecimal digits (decimal.exponent + (decimalText decimal.digits).length)

/-- `String(x)` for a finite number. -/
def numberText (x : Rat) : JSString :=
  if x = 0 then text "0" else if x < 0 then unit '-' :: positiveText (-x) else positiveText x

/-! ## Reading -/

/-- The text before the first unit with the property, and the text behind that unit. -/
def cutAt (stop : CodeUnit → Bool) (s : JSString) : JSString × Option JSString :=
  (s.takeWhile (!stop ·), (s.dropWhile (!stop ·)).tail?)

/-- An unsigned decimal literal; a fraction that is not written is `none`. -/
structure DecimalLiteral where
  whole : JSString
  fraction : Option JSString
  exponent : Int

def DecimalLiteral.value (literal : DecimalLiteral) : Rat :=
  let fraction := literal.fraction.getD []
  decimalValue (literal.whole ++ fraction) * 10 ^ (literal.exponent - fraction.length)

def readDigits (s : JSString) : Option Nat :=
  if !s.isEmpty && s.all isAsciiDigit then some (decimalValue s) else none

/-- The text behind the `e` of a literal. -/
def readExponent : JSString → Option Int
  | c :: rest =>
      if c = unit '+' then (readDigits rest).map Int.ofNat
      else if c = unit '-' then (readDigits rest).map fun n : Nat => -(n : Int)
      else (readDigits (c :: rest)).map Int.ofNat
  | [] => none

/-- A literal of digits, a fraction and an exponent, where the digits may be missing. -/
def readDecimal (s : JSString) : Option DecimalLiteral := do
  let (mantissa, exponentText) := cutAt (fun c => c = unit 'e' || c = unit 'E') s
  let (whole, fraction) := cutAt (· == unit '.') mantissa
  if !(whole ++ fraction.getD []).all isAsciiDigit then none
  else
    let exponent ← exponentText.elim (some 0) readExponent
    return ⟨whole, fraction, exponent⟩

/-- The grammar of JSON has no superfluous zero in front, and no point without digits on both
sides. -/
def DecimalLiteral.isJson (literal : DecimalLiteral) : Bool :=
  !literal.whole.isEmpty && (literal.whole = text "0" || literal.whole.head? ≠ some (unit '0')) &&
    literal.fraction ≠ some []

/-- A number of JSON. -/
def jsonNumber (s : JSString) : Option Number := do
  let negative : Bool := s.head? = some (unit '-')
  let literal ← readDecimal (if negative then s.drop 1 else s)
  if literal.isJson then
    return if negative then (toDouble literal.value).negate else toDouble literal.value
  else none

/-! ## Reading what was printed -/

theorem cut_at_none {stop : CodeUnit → Bool} {s : JSString} (h : ∀ c ∈ s, stop c = false) :
    cutAt stop s = (s, none) := by
  have hall : ∀ c ∈ s, (!stop c) = true := fun c hc => by rw [h c hc]; rfl
  rw [cutAt, List.takeWhile_eq_self_iff.mpr hall, List.dropWhile_eq_nil_iff.mpr hall]
  rfl

theorem cut_at_some {stop : CodeUnit → Bool} {before after : JSString} {c : CodeUnit}
    (h : ∀ c ∈ before, stop c = false) (hc : stop c = true) :
    cutAt stop (before ++ c :: after) = (before, some after) := by
  have hall : ∀ c ∈ before, (!stop c) = true := fun c hc => by rw [h c hc]; rfl
  have hstop : ¬ (!stop c) = true := by rw [hc]; decide
  rw [cutAt, List.takeWhile_append_of_pos hall, List.dropWhile_append_of_pos hall,
    @List.takeWhile_cons_of_neg _ (!stop ·) _ _ hstop,
    @List.dropWhile_cons_of_neg _ (!stop ·) _ _ hstop, List.append_nil]
  rfl

/-- A part of a text that may be missing, behind its mark. -/
def markedPart (mark : CodeUnit) (part : Option JSString) : JSString :=
  part.elim [] (mark :: ·)

theorem cut_at_marked {stop : CodeUnit → Bool} {before : JSString} {mark : CodeUnit}
    (h : ∀ c ∈ before, stop c = false) (hmark : stop mark = true) (part : Option JSString) :
    cutAt stop (before ++ markedPart mark part) = (before, part) := by
  cases part with
  | none => exact (congrArg (cutAt stop) (List.append_nil before)).trans (cut_at_none h)
  | some part => exact cut_at_some h hmark

theorem digit_is_no_mark {c : CodeUnit} (h : isAsciiDigit c = true) :
    c ≠ unit '.' ∧ c ≠ unit 'e' ∧ c ≠ unit 'E' ∧ c ≠ unit '+' ∧ c ≠ unit '-' := by
  refine ⟨?_, ?_, ?_, ?_, ?_⟩ <;>
  · rintro rfl
    exact absurd h (by decide)

/-- A literal is read from its parts. -/
theorem read_decimal_parts {whole : JSString} {fraction exponentText : Option JSString}
    {exponent : Int} (hwhole : ∀ c ∈ whole, isAsciiDigit c = true)
    (hfraction : ∀ c ∈ fraction.getD [], isAsciiDigit c = true)
    (hexponent : exponentText.elim (some 0) readExponent = some exponent) :
    readDecimal (whole ++ markedPart (unit '.') fraction ++ markedPart (unit 'e') exponentText) =
      some ⟨whole, fraction, exponent⟩ := by
  -- The literal is cut at the first `e`, then at the first point, and neither is in the digits.
  have hmantissa : ∀ c ∈ whole ++ markedPart (unit '.') fraction,
      (decide (c = unit 'e') || decide (c = unit 'E')) = false := by
    intro c hc
    have hplain : isAsciiDigit c = true ∨ c = unit '.' := by
      rcases List.mem_append.mp hc with hc | hc
      · exact Or.inl (hwhole c hc)
      · cases fraction with
        | none => cases hc
        | some fraction =>
            rcases List.mem_cons.mp hc with hc | hc
            · exact Or.inr hc
            · exact Or.inl (hfraction c hc)
    rcases hplain with hdigit | rfl
    · obtain ⟨-, hlower, hupper, -⟩ := digit_is_no_mark hdigit
      simp [hlower, hupper]
    · decide
  have hpoint : ∀ c ∈ whole, (c == unit '.') = false := fun c hc =>
    beq_eq_false_iff_ne.mpr (digit_is_no_mark (hwhole c hc)).1
  have hdigits : (!(whole ++ fraction.getD []).all isAsciiDigit) = false := by
    rw [List.all_append, List.all_eq_true.mpr hwhole, List.all_eq_true.mpr hfraction]
    rfl
  rw [readDecimal, cut_at_marked hmantissa (by decide)]
  dsimp only
  rw [cut_at_marked hpoint (by decide)]
  dsimp only
  rw [hdigits, if_neg (by decide), hexponent]
  rfl

/-- A text is a literal of JSON for a number. -/
def Spells (s : JSString) (value : Rat) : Prop :=
  ∃ literal, readDecimal s = some literal ∧ literal.isJson = true ∧ literal.value = value

theorem zeros_digits {count : Nat} {c : CodeUnit} (h : c ∈ zeros count) :
    isAsciiDigit c = true := by
  rw [(List.mem_replicate.mp h).2]
  decide

/-- Digits without a zero in front. -/
structure IsSignificant (digits : JSString) : Prop where
  all : ∀ c ∈ digits, isAsciiDigit c = true
  head : ∃ c rest, digits = c :: rest ∧ c ≠ unit '0'

theorem read_digits_text (n : Nat) : readDigits (decimalText n) = some n := by
  have hne : (decimalText n).isEmpty = false := by
    rw [decimal_text_eq]
    split
    · rfl
    · simp
  rw [readDigits, hne, List.all_eq_true.mpr fun c hc => decimal_text_digits hc, decimal_value_text]
  rfl

/-- A signed exponent is read back. -/
theorem read_exponent_text (n : Int) :
    readExponent ((if n < 0 then unit '-' else unit '+') :: decimalText n.natAbs) = some n := by
  by_cases hn : n < 0
  · rw [if_pos hn]
    show (readDigits (decimalText n.natAbs)).map (fun n : Nat => -(n : Int)) = some n
    rw [read_digits_text]
    exact congrArg some (show -(n.natAbs : Int) = n by omega)
  · rw [if_neg hn]
    show (readDigits (decimalText n.natAbs)).map Int.ofNat = some n
    rw [read_digits_text]
    exact congrArg some (by rw [Int.ofNat_eq_natCast]; omega)

theorem literal_value (whole : JSString) (fraction : Option JSString) (exponent : Int) :
    (⟨whole, fraction, exponent⟩ : DecimalLiteral).value =
      decimalValue (whole ++ fraction.getD []) *
        10 ^ (exponent - ((fraction.getD []).length : Int)) := rfl

/-- Reading the parts of a literal. -/
theorem spells_parts {whole : JSString} {fraction exponentText : Option JSString}
    {exponent : Int} {value : Rat} (hwhole : ∀ c ∈ whole, isAsciiDigit c = true)
    (hfraction : ∀ c ∈ fraction.getD [], isAsciiDigit c = true)
    (hexponent : exponentText.elim (some 0) readExponent = some exponent)
    (hjson : (⟨whole, fraction, exponent⟩ : DecimalLiteral).isJson = true)
    (hvalue : (⟨whole, fraction, exponent⟩ : DecimalLiteral).value = value) :
    Spells (whole ++ markedPart (unit '.') fraction ++ markedPart (unit 'e') exponentText) value :=
  ⟨_, read_decimal_parts hwhole hfraction hexponent, hjson, hvalue⟩

section

variable {digits : JSString} (h : IsSignificant digits)

include h

theorem IsSignificant.pos : 0 < digits.length := by
  obtain ⟨first, rest, hdigits, -⟩ := h.head
  rw [hdigits, List.length_cons]
  omega

/-- A whole number with zeros at the end. -/
theorem spells_whole (count : Nat) :
    Spells (digits ++ zeros count) (decimalValue digits * 10 ^ (count : Int)) := by
  have hspells := @spells_parts (digits ++ zeros count) none none 0
    (decimalValue digits * 10 ^ (count : Int))
    (fun c hc => (List.mem_append.mp hc).elim (h.all c) zeros_digits)
    (fun c hc => absurd hc List.not_mem_nil) rfl ?_ ?_
  · rwa [markedPart, markedPart, Option.elim_none, Option.elim_none, List.append_nil,
      List.append_nil] at hspells
  · obtain ⟨first, rest, hdigits, hfirst⟩ := h.head
    simp [DecimalLiteral.isJson, hdigits, hfirst]
  · simp [DecimalLiteral.value, decimal_value_zeros]

/-- A point between the digits. -/
theorem spells_point {place : Nat} (hpos : 0 < place) (hlt : place < digits.length) :
    Spells (digits.take place ++ unit '.' :: digits.drop place)
      (decimalValue digits * 10 ^ ((place : Int) - digits.length)) := by
  have hspells := @spells_parts (digits.take place) (some (digits.drop place)) none 0
    (decimalValue digits * 10 ^ ((place : Int) - digits.length))
    (fun c hc => h.all c (List.mem_of_mem_take hc))
    (fun c hc => h.all c (List.mem_of_mem_drop hc)) rfl ?_ ?_
  · rwa [markedPart, markedPart, Option.elim_none, Option.elim_some, List.append_nil] at hspells
  · obtain ⟨first, rest, hdigits, hfirst⟩ := h.head
    obtain ⟨place, rfl⟩ := Nat.exists_eq_succ_of_ne_zero hpos.ne'
    have hrest : rest.drop place ≠ [] := by
      rw [hdigits, List.length_cons] at hlt
      rw [ne_eq, List.drop_eq_nil_iff]
      omega
    simp [DecimalLiteral.isJson, hdigits, hfirst, hrest]
  · rw [literal_value, Option.getD_some, List.take_append_drop, List.length_drop,
      Nat.cast_sub hlt.le]
    congr 2
    omega

/-- Zeros behind the point. -/
theorem spells_fraction (count : Nat) :
    Spells (text "0." ++ zeros count ++ digits)
      (decimalValue digits * 10 ^ (-(count : Int) - digits.length)) := by
  have hspells := @spells_parts (text "0") (some (zeros count ++ digits)) none 0
    (decimalValue digits * 10 ^ (-(count : Int) - digits.length)) (by decide)
    (fun c hc => (List.mem_append.mp hc).elim zeros_digits (h.all c)) rfl ?_ ?_
  · rwa [markedPart, markedPart, Option.elim_none, Option.elim_some, List.append_nil] at hspells
  · obtain ⟨first, rest, hdigits, hfirst⟩ := h.head
    simp [DecimalLiteral.isJson, hdigits, text]
  · rw [literal_value, Option.getD_some, show text "0" = zeros 1 from rfl,
      zeros_decimal_value, zeros_decimal_value, List.length_append,
      show (zeros count).length = count from List.length_replicate]
    congr 2
    push_cast
    omega

/-- An exponent behind the digits. -/
theorem spells_exponent (point : Int) :
    Spells ((if (digits.length : Int) = 1 then digits
        else digits.take 1 ++ unit '.' :: digits.drop 1) ++
        unit 'e' :: (if point < 0 then unit '-' else unit '+') :: decimalText point.natAbs)
      (decimalValue digits * 10 ^ (point + 1 - digits.length)) := by
  obtain ⟨first, rest, hdigits, hfirst⟩ := h.head
  -- One digit has no point behind it; more digits have it behind the first.
  split
  · rename_i hone
    have hspells := @spells_parts digits none
      (some ((if point < 0 then unit '-' else unit '+') :: decimalText point.natAbs)) point
      (decimalValue digits * 10 ^ (point + 1 - digits.length)) h.all
      (fun c hc => absurd hc List.not_mem_nil)
      (read_exponent_text point) ?_ ?_
    · rwa [markedPart, markedPart, Option.elim_none, Option.elim_some, List.append_nil] at hspells
    · simp [DecimalLiteral.isJson, hdigits, hfirst]
    · rw [literal_value, Option.getD_none, List.append_nil, hone, List.length_nil]
      congr 2
      omega
  · rename_i hmany
    have hpositive := h.pos
    have hspells := @spells_parts (digits.take 1) (some (digits.drop 1))
      (some ((if point < 0 then unit '-' else unit '+') :: decimalText point.natAbs)) point
      (decimalValue digits * 10 ^ (point + 1 - digits.length))
      (fun c hc => h.all c (List.mem_of_mem_take hc))
      (fun c hc => h.all c (List.mem_of_mem_drop hc))
      (read_exponent_text point) ?_ ?_
    · rwa [markedPart, markedPart, Option.elim_some, Option.elim_some] at hspells
    · have hrest : rest ≠ [] := by
        rintro rfl
        rw [hdigits] at hmany
        exact hmany rfl
      simp [DecimalLiteral.isJson, hdigits, hfirst, hrest]
    · rw [literal_value, Option.getD_some, List.take_append_drop, List.length_drop,
        Nat.cast_sub hpositive]
      congr 2
      push_cast
      omega

/-- What is written with significant digits spells the decimal. -/
theorem spells_format (point : Int) :
    Spells (formatDecimal digits point)
      (decimalValue digits * 10 ^ (point - (digits.length : Int))) := by
  unfold formatDecimal
  dsimp only
  split
  · rename_i hwhole
    have hspells := spells_whole h (point - digits.length).toNat
    rwa [Int.toNat_of_nonneg (by omega)] at hspells
  · rename_i hshort
    split
    · rename_i hpoint
      have hspells := @spells_point digits h point.toNat (by omega) (by omega)
      rwa [Int.toNat_of_nonneg (by omega)] at hspells
    · split
      · rename_i hpoint
        have hspells := spells_fraction h (-point).toNat
        rwa [Int.toNat_of_nonneg (by omega), neg_neg] at hspells
      · have hspells := spells_exponent h (point - 1)
        rwa [sub_add_cancel] at hspells

end

/-! ## The text of a double -/

/-- The zeros at the end of a text. -/
theorem trailing_zeros (s : JSString) :
    ∃ count, s = s.rdropWhile (· == unit '0') ++ zeros count := by
  refine ⟨(s.rtakeWhile (· == unit '0')).length, ?_⟩
  have hzeros : s.rtakeWhile (· == unit '0') = zeros (s.rtakeWhile (· == unit '0')).length :=
    List.eq_replicate_iff.mpr ⟨rfl, fun c hc =>
      eq_of_beq (@List.mem_rtakeWhile_imp _ (· == unit '0') _ _ hc)⟩
  rw [← hzeros, List.rdropWhile_append_rtakeWhile]

/-- Without the zeros at its end, a positive number is its significant digits. -/
theorem significant_of_text {n : Nat} (h : n ≠ 0) :
    IsSignificant ((decimalText n).rdropWhile (· == unit '0')) := by
  obtain ⟨first, rest, htext, hfirst⟩ := decimal_text_head h
  obtain ⟨behind, hbehind⟩ := List.rdropWhile_prefix (· == unit '0') (decimalText n)
  refine ⟨fun c hc => decimal_text_digits (hbehind ▸ List.mem_append_left behind hc), ?_⟩
  cases hdigits : (decimalText n).rdropWhile (· == unit '0') with
  | nil =>
      have hzero := List.rdropWhile_eq_nil_iff.mp hdigits first (htext ▸ List.mem_cons_self)
      exact absurd (eq_of_beq hzero) hfirst
  | cons c digits =>
      rw [hdigits, htext] at hbehind
      exact ⟨c, digits, rfl, (List.cons.inj hbehind).1 ▸ hfirst⟩

/-- The digits without the zeros stand for the same decimal. -/
theorem stripped_value (decimal : Decimal) :
    ((decimalValue ((decimalText decimal.digits).rdropWhile (· == unit '0')) : Nat) : Rat) *
        10 ^ (decimal.exponent + ((decimalText decimal.digits).length : Int) -
          (((decimalText decimal.digits).rdropWhile (· == unit '0')).length : Int)) =
      decimal.value := by
  obtain ⟨count, hcount⟩ := trailing_zeros (decimalText decimal.digits)
  have hnumber := decimal_value_text decimal.digits
  have hlength := congrArg List.length hcount
  rw [List.length_append, zeros, List.length_replicate] at hlength
  rw [hcount, decimal_value_zeros] at hnumber
  have hexponent : decimal.exponent + ((decimalText decimal.digits).length : Int) -
      (((decimalText decimal.digits).rdropWhile (· == unit '0')).length : Int) =
        count + decimal.exponent := by omega
  rw [hexponent, zpow_add₀ (by norm_num), ← mul_assoc, zpow_natCast, Decimal.value]
  congr 1
  exact_mod_cast hnumber

/-- The number that a text of JSON is read as. -/
theorem json_number_unsigned {s : JSString} {value : Rat} (h : Spells s value)
    (hsign : s.head? ≠ some (unit '-')) : jsonNumber s = some (toDouble value) := by
  obtain ⟨literal, hread, hjson, rfl⟩ := h
  have hpositive : decide (s.head? = some (unit '-')) = false := decide_eq_false hsign
  rw [jsonNumber, hpositive, if_neg Bool.false_ne_true, hread]
  show (if literal.isJson = true then some (toDouble literal.value) else none) = _
  rw [if_pos hjson]

theorem json_number_negative {s : JSString} {value : Rat} (h : Spells s value) :
    jsonNumber (unit '-' :: s) = some (toDouble value).negate := by
  obtain ⟨literal, hread, hjson, rfl⟩ := h
  rw [jsonNumber, show decide ((unit '-' :: s).head? = some (unit '-')) = true from rfl,
    if_pos rfl, List.drop_succ_cons, List.drop_zero, hread]
  show (if literal.isJson = true then some (toDouble literal.value).negate else none) = _
  rw [if_pos hjson]

/-! ## The units of a number -/

/-- The units that literals are made of. -/
def isNumberUnit (c : CodeUnit) : Bool :=
  isAsciiDigit c || c ∈ [unit '.', unit 'e', unit 'E', unit '+', unit '-']

theorem number_unit_digit {c : CodeUnit} (h : isAsciiDigit c = true) : isNumberUnit c = true := by
  rw [isNumberUnit, h]
  rfl

theorem format_units {digits : JSString} (h : ∀ c ∈ digits, isAsciiDigit c = true) (point : Int) :
    ∀ c ∈ formatDecimal digits point, isNumberUnit c = true := by
  have hzeros (count : Nat) : ∀ c ∈ zeros count, isNumberUnit c = true := fun c hc =>
    number_unit_digit (zeros_digits hc)
  have hall : ∀ c ∈ digits, isNumberUnit c = true := fun c hc => number_unit_digit (h c hc)
  have htake (place : Nat) : ∀ c ∈ digits.take place, isNumberUnit c = true := fun c hc =>
    hall c (List.mem_of_mem_take hc)
  have hpoint (place : Nat) : ∀ c ∈ unit '.' :: digits.drop place, isNumberUnit c = true :=
    List.forall_mem_cons.mpr ⟨rfl, fun c hc => hall c (List.mem_of_mem_drop hc)⟩
  -- The five layouts of a decimal are made of the same parts.
  unfold formatDecimal
  dsimp only
  split_ifs
  · exact List.forall_mem_append.mpr ⟨hall, hzeros _⟩
  · exact List.forall_mem_append.mpr ⟨htake _, hpoint _⟩
  · exact List.forall_mem_append.mpr ⟨List.forall_mem_append.mpr ⟨by decide, hzeros _⟩, hall⟩
  all_goals
    refine List.forall_mem_append.mpr ⟨?_, List.forall_mem_cons.mpr ⟨rfl,
      List.forall_mem_cons.mpr ⟨by decide, fun c hc =>
        number_unit_digit (decimal_text_digits hc)⟩⟩⟩
    first
      | exact hall
      | exact List.forall_mem_append.mpr ⟨htake 1, hpoint 1⟩

/-- The text of a positive number starts with a digit. -/
theorem format_head {digits : JSString} (h : IsSignificant digits) (point : Int) :
    ∃ c rest, formatDecimal digits point = c :: rest ∧ isAsciiDigit c = true := by
  obtain ⟨first, rest, hdigits, -⟩ := h.head
  have hfirst : isAsciiDigit first = true := h.all first (hdigits ▸ List.mem_cons_self)
  have htake {place : Nat} (hplace : 0 < place) (behind : JSString) :
      ∃ c rest, digits.take place ++ behind = c :: rest ∧ isAsciiDigit c = true := by
    obtain ⟨place, rfl⟩ := Nat.exists_eq_succ_of_ne_zero hplace.ne'
    exact ⟨first, _, by rw [hdigits, List.take_succ_cons, List.cons_append], hfirst⟩
  unfold formatDecimal
  dsimp only
  split_ifs
  · exact ⟨first, _, by rw [hdigits, List.cons_append], hfirst⟩
  · exact htake (by omega) _
  · exact ⟨unit '0', _, rfl, rfl⟩
  all_goals
    first
      | exact ⟨first, _, by rw [hdigits, List.cons_append], hfirst⟩
      | exact List.append_assoc _ _ _ ▸ htake Nat.one_pos _

/-- The text of a positive double: it starts with a digit and spells a decimal that stands for the
number. -/
theorem positive_text {x : Rat} (hx : 0 < x) (hdouble : IsDouble x) :
    (∀ c ∈ positiveText x, isNumberUnit c = true) ∧
      (∃ c rest, positiveText x = c :: rest ∧ isAsciiDigit c = true) ∧
        ∃ value, Spells (positiveText x) value ∧ toDouble value = .finite x := by
  have hvalue := shortest_decimal_value hx hdouble
  have hne : (shortestDecimal x).digits ≠ 0 := by
    intro hzero
    rw [Decimal.value, hzero, Nat.cast_zero, zero_mul,
      show toDouble 0 = .finite 0 from is_double_int (by decide)] at hvalue
    exact hx.ne (Number.finite.inj hvalue)
  have hsignificant := significant_of_text hne
  have hspells := spells_format hsignificant
    ((shortestDecimal x).exponent + (decimalText (shortestDecimal x).digits).length)
  rw [stripped_value] at hspells
  exact ⟨format_units hsignificant.all _, format_head hsignificant _, _, hspells, hvalue⟩

/-- The text of a number is made of the units of literals, and starts with a digit or a minus. -/
theorem number_text_units {x : Rat} (h : IsDouble x) :
    (∀ c ∈ numberText x, isNumberUnit c = true) ∧
      ∃ c rest, numberText x = c :: rest ∧ (isAsciiDigit c = true ∨ c = unit '-') := by
  unfold numberText
  split_ifs with hzero hneg
  · exact ⟨by decide, _, [], rfl, Or.inl rfl⟩
  · obtain ⟨hunits, -, -⟩ := positive_text (neg_pos.mpr hneg) h.neg
    exact ⟨List.forall_mem_cons.mpr ⟨rfl, hunits⟩, _, _, rfl, Or.inr rfl⟩
  · obtain ⟨hunits, ⟨c, rest, htext, hc⟩, -⟩ :=
      positive_text ((not_lt.mp hneg).lt_of_ne (Ne.symm hzero)) h
    exact ⟨hunits, c, rest, htext, Or.inl hc⟩

/-- The text of a number is read as the number. -/
theorem json_number_text {x : Rat} (h : IsDouble x) :
    jsonNumber (numberText x) = some (.finite x) := by
  unfold numberText
  split_ifs with hzero hneg
  · rw [hzero]
    decide +kernel
  · obtain ⟨-, -, value, hspells, hvalue⟩ := positive_text (neg_pos.mpr hneg) h.neg
    rw [json_number_negative hspells, hvalue, Number.negate, neg_neg]
  · obtain ⟨-, ⟨c, rest, htext, hc⟩, value, hspells, hvalue⟩ :=
      positive_text ((not_lt.mp hneg).lt_of_ne (Ne.symm hzero)) h
    have hsign : (positiveText x).head? ≠ some (unit '-') := by
      rw [htext]
      exact fun hminus => (digit_is_no_mark hc).2.2.2.2 (Option.some.inj hminus)
    rw [json_number_unsigned hspells hsign, hvalue]

end JavaScript
