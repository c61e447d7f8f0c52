import AgentResolver.JavaScript.JsonText

/-!
# The tokens of a printed value

What `JSON.stringify` prints is read into the tokens of the value (`lexes_value`), whatever white
space the lines are indented with. A text stands for tokens when it is read into them in front of
every text that does not go on with a number or a name.
-/

namespace JavaScript

/-! ## Steps of the reader -/

theorem lex_step {state next : LexState} {c : CodeUnit} {tokens : List Token}
    (h : lexUnit state c = some (tokens, next)) (rest : JSString) :
    lex state (c :: rest) = (lex next rest).map (tokens ++ ·) := by
  rw [lex, h, Option.bind_some]

/-- A unit without a token. -/
theorem lex_quiet {state next : LexState} {c : CodeUnit} (h : lexUnit state c = some ([], next))
    (rest : JSString) : lex state (c :: rest) = lex next rest := by
  rw [lex_step h]
  exact Option.map_id'

/-- White space between tokens. -/
theorem lex_space {space : JSString} (h : ∀ c ∈ space, isJsonSpace c = true) (rest : JSString) :
    lex .between (space ++ rest) = lex .between rest := by
  induction space with
  | nil => rfl
  | cons c space ih =>
      have hstep : lexUnit .between c = some ([], .between) := by
        rw [lexUnit, startToken, if_pos (h c List.mem_cons_self)]
      rw [List.cons_append, lex_quiet hstep, ih fun d hd => h d (List.mem_cons_of_mem c hd)]

theorem lex_mark {c : CodeUnit} (h : isMark c = true) (rest : JSString) :
    lex .between (c :: rest) = (lex .between rest).map ([.mark c] ++ ·) := by
  have hspace : isJsonSpace c = false := by
    have hall : ∀ c ∈ [unit '[', unit ']', unit '\x7b', unit '\x7d', unit ',', unit ':'],
        isJsonSpace c = false := by decide
    exact hall c (of_decide_eq_true h)
  refine lex_step ?_ rest
  rw [lexUnit, startToken, hspace, if_neg Bool.false_ne_true, if_pos h]

/-! ## Words -/

/-- A text in front of which a word ends. -/
def IsDelimited (rest : JSString) : Prop := ∀ c, rest.head? = some c → isWordUnit c = false

theorem IsDelimited.cons {c : CodeUnit} (h : isWordUnit c = false) (rest : JSString) :
    IsDelimited (c :: rest) := by
  intro d hd
  rw [← Option.some.inj hd]
  exact h

theorem space_no_word {c : CodeUnit} (h : isJsonSpace c = true) : isWordUnit c = false :=
  (by decide : ∀ c ∈ [(0x20 : CodeUnit), 0x09, 0x0A, 0x0D], isWordUnit c = false) c
    (of_decide_eq_true h)

theorem mark_no_word {c : CodeUnit} (h : isMark c = true) : isWordUnit c = false :=
  (by decide : ∀ c ∈ [unit '[', unit ']', unit '\x7b', unit '\x7d', unit ',', unit ':'],
    isWordUnit c = false) c (of_decide_eq_true h)

/-- White space in front of a text that does not go on with a word. -/
theorem delimited_space {space rest : JSString} (h : ∀ c ∈ space, isJsonSpace c = true)
    (hrest : IsDelimited rest) : IsDelimited (space ++ rest) := by
  cases space with
  | nil => exact hrest
  | cons c space => exact .cons (space_no_word (h c List.mem_cons_self)) _

/-- A word starts with a unit of its own kind. -/
theorem start_word {c : CodeUnit} (h : isWordUnit c = true) :
    startToken c = some ([], .word [c]) := by
  have hspace : ¬ isJsonSpace c = true := by
    intro hc
    rw [space_no_word hc] at h
    cases h
  have hmark : ¬ isMark c = true := by
    intro hc
    rw [mark_no_word hc] at h
    cases h
  have hquote : c ≠ unit '"' := by
    rintro rfl
    exact absurd h (by decide)
  rw [startToken, if_neg hspace, if_neg hmark, if_neg hquote, if_pos h]

/-- The units of a word are read one after the other. -/
theorem lex_word_units {word : JSString} (h : ∀ c ∈ word, isWordUnit c = true)
    (read rest : JSString) : lex (.word read) (word ++ rest) = lex (.word (read ++ word)) rest := by
  induction word generalizing read with
  | nil => rw [List.nil_append, List.append_nil]
  | cons c word ih =>
      have hstep : lexUnit (.word read) c = some ([], .word (read ++ [c])) := by
        rw [lexUnit, if_pos (h c List.mem_cons_self)]
      rw [List.cons_append, lex_quiet hstep, ih fun d hd => h d (List.mem_cons_of_mem c hd),
        List.append_assoc, List.singleton_append]

/-- A word ends in front of a text that does not go on with it. -/
theorem lex_word_end {word rest : JSString} {value : JsonValue}
    (hvalue : wordValue word = some value) (hrest : IsDelimited rest) :
    lex (.word word) rest = (lex .between rest).map ([.word value] ++ ·) := by
  cases rest with
  | nil =>
      show (wordValue word).map (fun value => [Token.word value]) = _
      rw [hvalue]
      rfl
  | cons c rest =>
      rw [lex, lex, lexUnit, lexUnit, hrest c rfl, if_neg Bool.false_ne_true, hvalue,
        Option.bind_some]
      cases startToken c with
      | none => rfl
      | some step =>
          rw [Option.map_some, Option.bind_some, Option.bind_some, Option.map_map]
          rfl

/-- A text is read into tokens in front of every text that does not go on with a word. -/
def LexesTo (s : JSString) (tokens : List Token) : Prop :=
  ∀ rest, IsDelimited rest → lex .between (s ++ rest) = (lex .between rest).map (tokens ++ ·)

theorem lexes_word {word : JSString} {value : JsonValue} (hunits : ∀ c ∈ word, isWordUnit c = true)
    (hne : word ≠ []) (hvalue : wordValue word = some value) : LexesTo word [.word value] := by
  intro rest hrest
  cases word with
  | nil => exact absurd rfl hne
  | cons c word =>
      have hstep : lexUnit .between c = some ([], .word [c]) :=
        start_word (hunits c List.mem_cons_self)
      rw [List.cons_append, lex_quiet hstep,
        lex_word_units fun d hd => hunits d (List.mem_cons_of_mem c hd), List.singleton_append,
        lex_word_end hvalue hrest]

/-! ## Strings -/

/-- A unit that is written as it is. -/
theorem lex_plain_unit {c : CodeUnit} (hquote : c ≠ unit '"') (hslash : c ≠ backslash)
    (hcontrol : ¬ c < 0x20) (read rest : JSString) :
    lex (.string read) (c :: rest) = lex (.string (read ++ [c])) rest := by
  refine lex_quiet ?_ rest
  rw [lexUnit, if_neg hquote, if_neg hslash, if_neg hcontrol]

theorem lex_backslash (read rest : JSString) :
    lex (.string read) (backslash :: rest) = lex (.escape read) rest :=
  lex_quiet rfl rest

theorem hex_digit_char {digit : Nat} (h : digit < 16) :
    hexDigit (unit (Nat.digitChar digit)) = some digit :=
  (by decide : ∀ digit < 16, hexDigit (unit (Nat.digitChar digit)) = some digit) digit h

/-- The digits of an escape but the last one. -/
theorem lex_unicode_digit (read : JSString) {count value digit : Nat} (hdigit : digit < 16)
    (hcount : count < 3) (rest : JSString) :
    lex (.unicode read count value) (unit (Nat.digitChar digit) :: rest) =
      lex (.unicode read (count + 1) (16 * value + digit)) rest := by
  refine lex_quiet ?_ rest
  rw [lexUnit, hex_digit_char hdigit, Option.map_some, if_neg (by omega)]

theorem lex_unicode_last (read : JSString) {value digit : Nat} (hdigit : digit < 16)
    (rest : JSString) :
    lex (.unicode read 3 value) (unit (Nat.digitChar digit) :: rest) =
      lex (.string (read ++ [UInt16.ofNat (16 * value + digit)])) rest := by
  refine lex_quiet ?_ rest
  rw [lexUnit, hex_digit_char hdigit, Option.map_some, if_pos rfl]

/-- A unit is read back from its number. -/
theorem lex_unicode_escape (c : CodeUnit) (read rest : JSString) :
    lex (.string read) (unicodeEscape c ++ rest) = lex (.string (read ++ [c])) rest := by
  have hbound : c.toNat < 65536 := c.toNat_lt
  have hvalue : 16 * (16 * (16 * (16 * 0 + c.toNat / 2 ^ 12 % 16) + c.toNat / 2 ^ 8 % 16) +
      c.toNat / 2 ^ 4 % 16) + c.toNat / 2 ^ 0 % 16 = c.toNat := by omega
  show lex (.string read) (backslash :: unit 'u' :: unit (Nat.digitChar (c.toNat / 2 ^ 12 % 16)) ::
    unit (Nat.digitChar (c.toNat / 2 ^ 8 % 16)) :: unit (Nat.digitChar (c.toNat / 2 ^ 4 % 16)) ::
      unit (Nat.digitChar (c.toNat / 2 ^ 0 % 16)) :: rest) = _
  rw [lex_backslash, show lex (.escape read) (unit 'u' :: _) = lex (.unicode read 0 0) _ from
      lex_quiet rfl _, lex_unicode_digit read (Nat.mod_lt _ (by decide)) (by decide),
    lex_unicode_digit read (Nat.mod_lt _ (by decide)) (by decide),
    lex_unicode_digit read (Nat.mod_lt _ (by decide)) (by decide),
    lex_unicode_last read (Nat.mod_lt _ (by decide)), hvalue, UInt16.ofNat_toNat]

/-- A short escape is read back. -/
theorem lex_short_escape {c letter : CodeUnit} (h : shortEscapes.lookup c = some letter)
    (read rest : JSString) :
    lex (.string read) (backslash :: letter :: rest) = lex (.string (read ++ [c])) rest := by
  have hall : ∀ entry ∈ shortEscapes, entry.2 ≠ unit 'u' ∧ escapedUnit entry.2 = some entry.1 := by
    decide
  obtain ⟨before, after, hentries, -⟩ := List.lookup_eq_some_iff.mp h
  obtain ⟨hletter, hescaped⟩ := hall (c, letter) (hentries ▸ by simp)
  rw [lex_backslash]
  refine lex_quiet ?_ rest
  rw [lexUnit, if_neg hletter, hescaped, Option.map_some]

/-- A unit without a short escape is no quote and no backslash. -/
theorem lookup_short_escapes {c : CodeUnit} (h : shortEscapes.lookup c = none) :
    c ≠ unit '"' ∧ c ≠ backslash := by
  refine ⟨?_, ?_⟩
  · rintro rfl
    exact absurd h (by decide)
  · rintro rfl
    exact absurd h (by decide)

/-- A unit of a string is read back. -/
theorem lex_quote_unit (c : CodeUnit) (read rest : JSString) :
    lex (.string read) (quoteUnit c ++ rest) = lex (.string (read ++ [c])) rest := by
  unfold quoteUnit
  split
  · rename_i letter hletter
    exact lex_short_escape hletter read rest
  · rename_i hnone
    obtain ⟨hquote, hslash⟩ := lookup_short_escapes hnone
    split_ifs with hescaped
    · exact lex_unicode_escape c read rest
    · refine lex_plain_unit hquote hslash (fun hcontrol => hescaped ?_) read rest
      rw [decide_eq_true hcontrol]
      rfl

/-- A surrogate is written as it is. -/
theorem lex_surrogate {c : CodeUnit} (h : 0xD800 ≤ c) (read rest : JSString) :
    lex (.string read) (c :: rest) = lex (.string (read ++ [c])) rest := by
  refine lex_plain_unit ?_ ?_ ?_ read rest
  · rintro rfl
    exact absurd h (by decide)
  · rintro rfl
    exact absurd h (by decide)
  · intro hcontrol
    rw [UInt16.le_iff_toNat_le] at h
    rw [UInt16.lt_iff_toNat_lt] at hcontrol
    simp only [UInt16.reduceToNat] at h hcontrol
    omega

/-- The units of a string are read back. -/
theorem lex_quote_units (s read rest : JSString) :
    lex (.string read) (quoteUnits s ++ rest) = lex (.string (read ++ s)) rest := by
  fun_induction quoteUnits s generalizing read with
  | case1 => rw [List.append_nil]; rfl
  | case2 c => exact lex_quote_unit c read rest
  | case3 c d more hpair ih =>
      obtain ⟨hhigh, hlow⟩ := Bool.and_eq_true_iff.mp hpair
      have hc : 0xD800 ≤ c := of_decide_eq_true (Bool.and_eq_true_iff.mp hhigh).1
      have hd : 0xD800 ≤ d := UInt16.le_trans (by decide : (0xD800 : CodeUnit) ≤ 0xDC00)
        (of_decide_eq_true (Bool.and_eq_true_iff.mp hlow).1)
      rw [List.cons_append, List.cons_append, lex_surrogate hc, lex_surrogate hd, ih,
        List.append_assoc, List.append_assoc]
      rfl
  | case4 c d more hpair ih =>
      rw [List.append_assoc, lex_quote_unit, ih, List.append_assoc, List.singleton_append]

/-- A string is read back. -/
theorem lexes_quote (s : JSString) : LexesTo (quote s) [.string s] := by
  intro rest _
  rw [quote, List.cons_append, List.cons_append, List.append_assoc]
  show lex .between (unit '"' :: (quoteUnits s ++ unit '"' :: rest)) = _
  rw [show lex .between (unit '"' :: _) = lex (.string []) _ from lex_quiet rfl _, lex_quote_units]
  exact lex_step rfl rest

/-! ## Brackets -/

/-- The tokens of the parts of an array or object. -/
def bracketTokens (opening closing : CodeUnit) (parts : List (List Token)) : List Token :=
  .mark opening :: ([Token.mark (unit ',')].intercalate parts ++ [.mark closing])

/-- Tokens that are read one after the other. -/
theorem map_append_append (first second : List Token) (tokens : Option (List Token)) :
    (tokens.map (second ++ ·)).map (first ++ ·) = tokens.map (first ++ second ++ ·) := by
  rw [Option.map_map]
  exact congrArg (Option.map · _) (funext fun tail => (List.append_assoc first second tail).symm)

/-- Texts between commas and white space. -/
theorem lexes_parts {space : JSString} (hspace : ∀ c ∈ space, isJsonSpace c = true)
    {parts : List JSString} {tokens : List (List Token)} (h : List.Forall₂ LexesTo parts tokens) :
    LexesTo (join parts (unit ',' :: space)) ([Token.mark (unit ',')].intercalate tokens) := by
  induction h with
  | nil => exact fun rest _ => Option.map_id'.symm
  | @cons part token parts tokens hpart hparts ih =>
      cases hparts with
      | nil =>
          show LexesTo (part ++ []) (token ++ [])
          rw [List.append_nil, List.append_nil]
          exact hpart
      | @cons next nextTokens parts tokens hnext hparts =>
          intro rest hrest
          rw [join, List.intercalate_cons_cons, List.intercalate_cons_cons, List.append_assoc,
            List.append_assoc, List.cons_append, hpart _ (.cons rfl _), lex_mark rfl,
            lex_space hspace, ← join, ih rest hrest, map_append_append, map_append_append]

/-- The parts of an array or object between brackets. -/
theorem lexes_bracket {opening closing : CodeUnit} {gap indent : JSString}
    (hopening : isMark opening = true) (hclosing : isMark closing = true)
    (hgap : ∀ c ∈ gap, isJsonSpace c = true) (hindent : ∀ c ∈ indent, isJsonSpace c = true)
    {parts : List JSString} {tokens : List (List Token)} (h : List.Forall₂ LexesTo parts tokens) :
    LexesTo (bracketText opening closing gap indent parts)
      (bracketTokens opening closing tokens) := by
  have hbreak : ∀ indent, (∀ c ∈ indent, isJsonSpace c = true) →
      ∀ c ∈ lineBreak gap indent, isJsonSpace c = true := by
    intro indent hindent
    unfold lineBreak
    split
    · exact fun c hc => absurd hc List.not_mem_nil
    · exact List.forall_mem_cons.mpr ⟨rfl, hindent⟩
  -- Line breaks and the indentation are white space, which the lexer skips.
  have hinner := hbreak (indent ++ gap) (List.forall_mem_append.mpr ⟨hindent, hgap⟩)
  have hclosed (rest : JSString) : IsDelimited (closing :: rest) :=
    .cons (mark_no_word hclosing) rest
  intro rest _
  unfold bracketText bracketTokens
  cases h with
  | nil =>
      show lex .between (opening :: closing :: rest) = _
      rw [lex_mark hopening, lex_mark hclosing, map_append_append]
      rfl
  | cons hpart hparts =>
      rw [if_neg (by simp), List.cons_append, lex_mark hopening, List.append_assoc,
        List.append_assoc, List.append_assoc, List.singleton_append, lex_space hinner,
        lexes_parts hinner (.cons hpart hparts) _
          (delimited_space (hbreak indent hindent) (hclosed rest)),
        lex_space (hbreak indent hindent), lex_mark hclosing, map_append_append,
        map_append_append]
      simp

/-! ## Values -/

/-- What holds of every value when it holds of an array or object that it holds of inside. -/
theorem json_induction {motive : JsonValue → Prop} (null : motive .null)
    (boolean : ∀ value, motive (.boolean value)) (number : ∀ value, motive (.number value))
    (string : ∀ value, motive (.string value))
    (array : ∀ items, (∀ item ∈ items, motive item) → motive (.array items))
    (object : ∀ members, (∀ member ∈ members, motive member.2) → motive (.object members))
    (value : JsonValue) : motive value :=
  @JsonValue.rec motive (fun items => ∀ item ∈ items, motive item)
    (fun members => ∀ member ∈ members, motive member.2) (fun member => motive member.2)
    null boolean number string array object
    (fun _ hitem => absurd hitem List.not_mem_nil)
    (fun _ _ hitem hitems => List.forall_mem_cons.mpr ⟨hitem, hitems⟩)
    (fun _ hmember => absurd hmember List.not_mem_nil)
    (fun _ _ hmember hmembers => List.forall_mem_cons.mpr ⟨hmember, hmembers⟩)
    (fun _ _ hvalue => hvalue) value

/-- Values of the language: numbers are doubles, and no object has a property twice. -/
inductive IsLanguageValue : JsonValue → Prop where
  | null : IsLanguageValue .null
  | boolean (value : Bool) : IsLanguageValue (.boolean value)
  | number {value : Rat} : IsDouble value → IsLanguageValue (.number (.finite value))
  | infinite (negative : Bool) : IsLanguageValue (.number (.infinite negative))
  | string (value : JSString) : IsLanguageValue (.string value)
  | array {items : List JsonValue} : (∀ item ∈ items, IsLanguageValue item) →
      IsLanguageValue (.array items)
  | object {members : Properties JsonValue} : (members.map Prod.fst).Nodup →
      (∀ member ∈ members, IsLanguageValue member.2) → IsLanguageValue (.object members)

/-- The tokens of a property. -/
def memberTokens (member : JSString × List Token) : List Token :=
  .string member.1 :: .mark (unit ':') :: member.2

mutual

/-- The tokens of a value as it is printed. -/
def valueTokens : JsonValue → List Token
  | .null => [.word .null]
  | .boolean value => [.word (.boolean value)]
  | .number (.finite value) => [.word (.number (.finite value))]
  | .number (.infinite _) => [.word .null]
  | .string value => [.string value]
  | .array items => bracketTokens (unit '[') (unit ']') (itemsTokens items)
  | .object members =>
      bracketTokens (unit '\x7b') (unit '\x7d')
        ((enumerate (membersTokens members)).map memberTokens)

def itemsTokens : List JsonValue → List (List Token)
  | [] => []
  | item :: rest => valueTokens item :: itemsTokens rest

def membersTokens : List (JSString × JsonValue) → Properties (List Token)
  | [] => []
  | (key, value) :: rest => (key, valueTokens value) :: membersTokens rest

end

theorem item_texts_eq (gap indent : JSString) (items : List JsonValue) :
    itemTexts gap indent items = items.map (valueText gap indent) := by
  induction items with
  | nil => rw [itemTexts, List.map_nil]
  | cons item rest ih => rw [itemTexts, ih, List.map_cons]

theorem member_texts_eq (gap indent : JSString) (members : Properties JsonValue) :
    memberTexts gap indent members =
      members.map fun member => (member.1, valueText gap indent member.2) := by
  induction members with
  | nil => rw [memberTexts, List.map_nil]
  | cons member rest ih => rw [memberTexts, ih, List.map_cons]

theorem items_tokens_eq (items : List JsonValue) : itemsTokens items = items.map valueTokens := by
  induction items with
  | nil => rw [itemsTokens, List.map_nil]
  | cons item rest ih => rw [itemsTokens, ih, List.map_cons]

theorem members_tokens_eq (members : Properties JsonValue) :
    membersTokens members = members.map fun member => (member.1, valueTokens member.2) := by
  induction members with
  | nil => rw [membersTokens, List.map_nil]
  | cons member rest ih => rw [membersTokens, ih, List.map_cons]

/-- The order of the properties depends on the keys only. -/
theorem enumerate_map {α β : Type} (f : α → β) (members : Properties α) :
    enumerate (members.map fun member => (member.1, f member.2)) =
      (enumerate members).map fun member => (member.1, f member.2) := by
  have hsort := List.map_insertionSort
    (fun first second : JSString × α =>
      (arrayIndex first.1).getD 0 ≤ (arrayIndex second.1).getD 0)
    (fun first second : JSString × β =>
      (arrayIndex first.1).getD 0 ≤ (arrayIndex second.1).getD 0)
    (fun member => (member.1, f member.2))
    (members.filter fun member => (arrayIndex member.1).isSome) fun _ _ _ _ => Iff.rfl
  unfold enumerate
  rw [List.map_append, hsort, List.filter_map, List.filter_map]
  rfl

theorem mem_enumerate {α : Type} {members : Properties α} {member : JSString × α} :
    member ∈ enumerate members ↔ member ∈ members := by
  unfold enumerate
  rw [List.mem_append, List.mem_insertionSort, List.mem_filter, List.mem_filter, ← and_or_left]
  cases arrayIndex member.1 <;> simp

/-- The text of a number is a word. -/
theorem lexes_number {value : Rat} (h : IsDouble value) :
    LexesTo (numberText value) [.word (.number (.finite value))] := by
  obtain ⟨hunits, c, rest, htext, hc⟩ := number_text_units h
  -- None of the three names starts like a number.
  have hname (name : JSString)
      (hstart : ∃ d ∈ name.head?, isAsciiDigit d = false ∧ d ≠ unit '-') :
      numberText value ≠ name := by
    obtain ⟨d, hd, hdigit, hminus⟩ := hstart
    rintro rfl
    rw [htext] at hd
    obtain rfl := Option.some.inj hd
    rcases hc with hc | hc
    · rw [hdigit] at hc
      cases hc
    · exact hminus hc
  have hvalue : wordValue (numberText value) = some (.number (.finite value)) := by
    rw [wordValue, if_neg (hname (text "null") (by decide)),
      if_neg (hname (text "true") (by decide)), if_neg (hname (text "false") (by decide)),
      json_number_text h]
    rfl
  refine lexes_word (fun d hd => ?_) (by rw [htext]; exact List.cons_ne_nil c rest) hvalue
  rw [isWordUnit, hunits d hd]
  rfl

/-- A key, a colon and a value. -/
theorem lexes_member {gap s : JSString} {tokens : List Token} (h : LexesTo s tokens)
    (key : JSString) : LexesTo (memberText gap (key, s)) (memberTokens (key, tokens)) := by
  have hspace : ∀ c ∈ (if gap.isEmpty then [] else text " "), isJsonSpace c = true := by
    split
    · exact fun c hc => absurd hc List.not_mem_nil
    · decide
  intro rest hrest
  rw [memberText, List.append_assoc, List.append_assoc, List.cons_append,
    lexes_quote key _ (.cons rfl _), lex_mark rfl, lex_space hspace, h rest hrest,
    map_append_append, map_append_append]
  rfl

/-- What is printed for a value is read into its tokens. -/
theorem lexes_value {gap : JSString} (hgap : ∀ c ∈ gap, isJsonSpace c = true) {value : JsonValue}
    (h : IsLanguageValue value) {indent : JSString} (hindent : ∀ c ∈ indent, isJsonSpace c = true) :
    LexesTo (valueText gap indent value) (valueTokens value) := by
  have hinner {indent : JSString} (hindent : ∀ c ∈ indent, isJsonSpace c = true) :
      ∀ c ∈ indent ++ gap, isJsonSpace c = true := List.forall_mem_append.mpr ⟨hindent, hgap⟩
  induction value using json_induction generalizing indent with
  | null => exact @lexes_word (text "null") _ (by decide) (by decide) rfl
  | boolean value =>
      cases value with
      | true => exact @lexes_word (text "true") _ (by decide) (by decide) rfl
      | false => exact @lexes_word (text "false") _ (by decide) (by decide) rfl
  | number value =>
      cases h with
      | number hdouble => exact lexes_number hdouble
      | infinite negative => exact @lexes_word (text "null") _ (by decide) (by decide) rfl
  | string value => exact lexes_quote value
  | array items ih =>
      obtain ⟨⟩ | ⟨⟩ | ⟨⟩ | ⟨⟩ | ⟨⟩ | hitems := h
      rw [valueText, valueTokens, item_texts_eq, items_tokens_eq]
      refine lexes_bracket rfl rfl hgap hindent ?_
      rw [List.forall₂_map_left_iff, List.forall₂_map_right_iff, List.forall₂_same]
      exact fun item hitem => ih item hitem (hitems item hitem) (hinner hindent)
  -- The members are printed in the order of enumeration, and read in that order.
  | object members ih =>
      obtain ⟨⟩ | ⟨⟩ | ⟨⟩ | ⟨⟩ | ⟨⟩ | ⟨⟩ | ⟨-, hmembers⟩ := h
      rw [valueText, valueTokens, member_texts_eq, members_tokens_eq, enumerate_map, enumerate_map,
        List.map_map, List.map_map]
      refine lexes_bracket rfl rfl hgap hindent ?_
      rw [List.forall₂_map_left_iff, List.forall₂_map_right_iff, List.forall₂_same]
      intro member hmember
      have hmem := mem_enumerate.mp hmember
      exact lexes_member (ih member hmem (hmembers member hmem) (hinner hindent)) member.1

end JavaScript
