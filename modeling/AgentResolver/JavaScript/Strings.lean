import Mathlib.Data.List.DropRight

/-!
# JavaScript strings

A string is a sequence of UTF-16 code units, and every operation below counts, compares and
cuts code units, as the language does. Lone surrogates are allowed. Positions that are `-1`
in the language are `none` here.
-/

namespace JavaScript

/-- A UTF-16 code unit. -/
abbrev CodeUnit := UInt16

/-- A string value: any sequence of code units. -/
abbrev JSString := List CodeUnit

/-- The code unit of a character of the basic multilingual plane. -/
def unit (c : Char) : CodeUnit := UInt16.ofNat c.toNat

/-- A string literal, written with characters of the basic multilingual plane. -/
def text (s : String) : JSString := s.toList.map unit

instance instLawfulBEqJSString : LawfulBEq JSString := inferInstance

/-- A quantifier over the members of a text is decided on the text, not on all code units. -/
instance (priority := 1100) decidableForallMem {α : Type} (p : α → Prop) [DecidablePred p]
    (items : List α) : Decidable (∀ c, c ∈ items → p c) :=
  List.decidableBAll p items

/-- `WhiteSpace` or `LineTerminator`: what `trim` removes and `\s` matches. -/
def isWhitespace (c : CodeUnit) : Bool :=
  (0x09 ≤ c && c ≤ 0x0D) || c == 0x20 || c == 0xA0 || c == 0x1680 ||
    (0x2000 ≤ c && c ≤ 0x200A) || c == 0x2028 || c == 0x2029 || c == 0x202F || c == 0x205F ||
    c == 0x3000 || c == 0xFEFF

/-- `s.trim()`. -/
def trim (s : JSString) : JSString := (s.dropWhile isWhitespace).rdropWhile isWhitespace

/-- `s.startsWith(start)`. -/
def startsWith (s start : JSString) : Bool := start.isPrefixOf s

/-- `s.indexOf(c)` for a one-unit string, `none` standing for `-1`. -/
def indexOf (s : JSString) (c : CodeUnit) : Option Nat := s.idxOf? c

/-- `s.split(c)` for a one-unit separator. -/
def split (s : JSString) (c : CodeUnit) : List JSString := s.splitOn c

/-- `items.join(separator)`. -/
def join (items : List JSString) (separator : JSString) : JSString := separator.intercalate items

/-- Lower case of the letters A to Z only. -/
def asciiLower (c : CodeUnit) : CodeUnit := if 0x41 ≤ c ∧ c ≤ 0x5A then c + 0x20 else c

/-- A letter, which is what a case-insensitive `[a-z]` matches without the `u` flag: no unit
outside ASCII folds into ASCII there. -/
def isAsciiAlpha (c : CodeUnit) : Bool := (0x61 ≤ c && c ≤ 0x7A) || (0x41 ≤ c && c ≤ 0x5A)

/-- An ASCII digit. -/
def isAsciiDigit (c : CodeUnit) : Bool := 0x30 ≤ c && c ≤ 0x39

/-- A literal in two parts, in front of any text. -/
theorem append_parts {whole start : JSString} (tail : JSString) (h : whole = start ++ tail)
    (rest : JSString) : whole ++ rest = start ++ (tail ++ rest) := by
  rw [h, List.append_assoc]

/-! ## Searching -/

/-- A unit that is not in the string is not found. -/
theorem index_of_none {s : JSString} {c : CodeUnit} (h : c ∉ s) : indexOf s c = none :=
  List.idxOf?_eq_none_iff.mpr h

/-- The first occurrence of a unit. -/
theorem index_of_append {before after : JSString} {c : CodeUnit} (h : c ∉ before) :
    indexOf (before ++ c :: after) c = some before.length := by
  induction before with
  | nil => simp [indexOf, List.idxOf?_cons]
  | cons d before ih =>
      have hd : ¬ d = c := fun heq => h (by simp [heq])
      have hrest : c ∉ before := fun hmem => h (List.mem_cons_of_mem _ hmem)
      simpa [indexOf, List.idxOf?_cons, hd] using ih hrest

/-! ## Splitting -/

/-- A unit that is not the separator is in some piece. -/
theorem exists_piece_of_mem {s : JSString} {separator c : CodeUnit} (hc : c ∈ s)
    (hne : c ≠ separator) : ∃ piece ∈ split s separator, c ∈ piece := by
  induction s with
  | nil => simp at hc
  | cons d rest ih =>
      obtain ⟨head, tail, hsplit⟩ := List.exists_cons_of_ne_nil (List.splitOn_ne_nil separator rest)
      simp only [split, hsplit] at ih
      rw [split, List.splitOn_cons_eq_if_modifyHead, hsplit]
      by_cases hd : d = separator
      · have hrest : c ∈ rest := by simpa [show c ≠ d from hd ▸ hne] using hc
        obtain ⟨piece, hpiece, hmem⟩ := ih hrest
        refine ⟨piece, ?_, hmem⟩
        simp only [hd, beq_self_eq_true, if_true]
        exact List.mem_cons_of_mem _ hpiece
      · simp only [beq_iff_eq, hd, if_false, List.modifyHead_cons]
        rcases List.mem_cons.mp hc with rfl | hrest
        · exact ⟨c :: head, by simp, by simp⟩
        · obtain ⟨piece, hpiece, hmem⟩ := ih hrest
          rcases List.mem_cons.mp hpiece with rfl | hpiece
          · exact ⟨d :: piece, by simp, by simp [hmem]⟩
          · exact ⟨piece, by simp [hpiece], hmem⟩

/-- A string without the separator is one piece. -/
theorem split_no_separator {s : JSString} {separator : CodeUnit} (h : separator ∉ s) :
    split s separator = [s] := by
  have hsplit := @List.splitOn_intercalate _ [s] _ _ separator (by simpa using h) (by simp)
  simpa [split] using hsplit

/-- A piece and a separator in front of a text. -/
theorem split_append {piece rest : JSString} {separator : CodeUnit} (h : separator ∉ piece) :
    split (piece ++ separator :: rest) separator = piece :: split rest separator := by
  have hpiece := split_no_separator h
  unfold split at hpiece ⊢
  rw [List.splitOn_append_cons_self, hpiece]
  rfl

/-- Induction on the pieces of a text between separators. -/
theorem pieces_induction {separator : CodeUnit} {motive : JSString → Prop}
    (last : ∀ piece, separator ∉ piece → motive piece)
    (next : ∀ piece rest, separator ∉ piece → motive rest → motive (piece ++ separator :: rest))
    (s : JSString) : motive s := by
  suffices h : ∀ piece, separator ∉ piece → motive (piece ++ s) from h [] List.not_mem_nil
  induction s with
  | nil =>
      intro piece hpiece
      rw [List.append_nil]
      exact last piece hpiece
  | cons c rest ih =>
      intro piece hpiece
      by_cases hc : c = separator
      · subst hc
        exact next piece rest hpiece (ih [] List.not_mem_nil)
      · rw [List.append_cons]
        refine ih (piece ++ [c]) ?_
        rw [List.mem_append, List.mem_singleton, not_or]
        exact ⟨hpiece, fun h => hc h.symm⟩

/-! ## Trimming -/

/-- A string that neither starts nor ends with whitespace. -/
def Trimmed (s : JSString) : Prop := trim s = s

instance (s : JSString) : Decidable (Trimmed s) := inferInstanceAs (Decidable (trim s = s))

@[simp] theorem trim_nil : trim [] = [] := rfl

/-- The trimmed string does not start with whitespace. -/
theorem drop_while_trim (s : JSString) : (trim s).dropWhile isWhitespace = trim s := by
  have hstart : ∀ c rest, s.dropWhile isWhitespace = c :: rest → isWhitespace c = false := by
    intro c rest hs
    have := List.head?_dropWhile_not isWhitespace s
    simpa [hs] using this
  unfold trim
  cases hs : s.dropWhile isWhitespace with
  | nil => rfl
  | cons c rest =>
      obtain ⟨tail, htail⟩ := List.rdropWhile_prefix isWhitespace (c :: rest)
      cases hr : (c :: rest).rdropWhile isWhitespace with
      | nil => rfl
      | cons d more =>
          rw [hr] at htail
          have hd : d = c := by simpa using congrArg List.head? htail
          simp [hd, hstart c rest hs]

/-- Trimming twice is trimming once. -/
theorem trim_trim (s : JSString) : trim (trim s) = trim s := by
  have h := drop_while_trim s
  conv_lhs => rw [trim, h]
  simp [trim, List.rdropWhile_idempotent]

/-- A trimmed string is trimmed. -/
theorem trimmed_trim (s : JSString) : Trimmed (trim s) := trim_trim s

theorem length_trim_le (s : JSString) : (trim s).length ≤ s.length := by
  have hstart : trim s <+: s.dropWhile isWhitespace := List.rdropWhile_prefix _ _
  exact hstart.length_le.trans (List.dropWhile_sublist _).length_le

/-- A string that neither starts nor ends with whitespace is trimmed. -/
theorem trimmed_of_head_last {s : JSString}
    (hhead : ∀ c, s.head? = some c → isWhitespace c = false)
    (hlast : ∀ c, s.getLast? = some c → isWhitespace c = false) : Trimmed s := by
  have hstart : s.dropWhile isWhitespace = s := by
    cases s with
    | nil => rfl
    | cons c rest => exact List.dropWhile_cons_of_neg (by simp [hhead c rfl])
  unfold Trimmed trim
  rw [hstart, List.rdropWhile_eq_self_iff]
  intro hs
  simp [hlast _ (List.getLast?_eq_some_getLast hs)]

/-- A trimmed string does not start with whitespace. -/
theorem Trimmed.head {s : JSString} (h : Trimmed s) {c : CodeUnit}
    (hc : s.head? = some c) : isWhitespace c = false := by
  cases s with
  | nil => cases hc
  | cons d rest =>
      obtain rfl := Option.some.inj hc
      by_contra hspace
      have hdrop := drop_while_trim (d :: rest)
      rw [show trim (d :: rest) = d :: rest from h,
        List.dropWhile_cons_of_pos (by simpa using hspace)] at hdrop
      have hshort := (@List.dropWhile_sublist _ rest isWhitespace).length_le
      rw [hdrop, List.length_cons] at hshort
      omega

/-- A trimmed string does not end with whitespace. -/
theorem Trimmed.last {s : JSString} (h : Trimmed s) {c : CodeUnit}
    (hc : s.getLast? = some c) : isWhitespace c = false := by
  have hne : s ≠ [] := by
    rintro rfl
    cases hc
  have hdrop : s.rdropWhile isWhitespace = s := by
    have hstart := drop_while_trim s
    rw [show trim s = s from h] at hstart
    have htrim : (s.dropWhile isWhitespace).rdropWhile isWhitespace = s := h
    rwa [hstart] at htrim
  have hlast := List.rdropWhile_eq_self_iff.mp hdrop hne
  rw [List.getLast?_eq_some_getLast hne] at hc
  cases hc
  simpa using hlast

/-- Visible ASCII is not whitespace. -/
theorem not_whitespace_of_visible {c : CodeUnit} (hlow : 0x21 ≤ c.toNat)
    (hhigh : c.toNat ≤ 0x7E) : isWhitespace c = false := by
  simp only [isWhitespace, Bool.or_eq_false_iff, Bool.and_eq_false_iff, decide_eq_false_iff_not,
    beq_eq_false_iff_ne, ne_eq, UInt16.le_iff_toNat_le, ← UInt16.toNat_inj]
  simp only [UInt16.reduceToNat]
  omega

/-- A string without whitespace is trimmed. -/
theorem trimmed_of_no_whitespace {s : JSString} (h : ∀ c ∈ s, isWhitespace c = false) :
    Trimmed s :=
  trimmed_of_head_last (fun c hc => h c (List.mem_of_head? hc))
    fun c hc => h c (List.mem_of_getLast? hc)

/-- Whitespace in front of a text is trimmed. -/
theorem trim_cons {c : CodeUnit} (h : isWhitespace c) (s : JSString) : trim (c :: s) = trim s := by
  rw [trim, List.dropWhile_cons_of_pos h]
  rfl

/-- Whitespace at the end of a text is trimmed. -/
theorem trim_snoc {c : CodeUnit} (h : isWhitespace c) (s : JSString) :
    trim (s ++ [c]) = trim s := by
  rw [trim, List.dropWhile_append]
  split
  · rename_i hs
    rw [trim, List.isEmpty_iff.mp hs, List.dropWhile_cons_of_pos h]
    rfl
  · rw [List.rdropWhile_concat_pos _ _ _ h]
    rfl

/-- Dropping whitespace in front of a text first changes nothing. -/
theorem trim_drop_while (s : JSString) : trim (s.dropWhile isWhitespace) = trim s := by
  induction s with
  | nil => rfl
  | cons c rest ih =>
      by_cases hc : isWhitespace c
      · rw [List.dropWhile_cons_of_pos hc, ih, trim_cons hc]
      · rw [List.dropWhile_cons_of_neg hc]

/-- Several units of whitespace in front of a text are trimmed. -/
theorem trim_append {space : JSString} (h : ∀ c ∈ space, isWhitespace c) (s : JSString) :
    trim (space ++ s) = trim s := by
  induction space with
  | nil => rfl
  | cons c rest ih =>
      rw [List.cons_append, trim_cons (h c List.mem_cons_self),
        ih fun d hd => h d (List.mem_cons_of_mem c hd)]

/-- Several units of whitespace at the end of a text are trimmed. -/
theorem trim_append_end {space : JSString} (h : ∀ c ∈ space, isWhitespace c) (s : JSString) :
    trim (s ++ space) = trim s := by
  induction space using List.reverseRecOn with
  | nil => rw [List.append_nil]
  | append_singleton rest c ih =>
      rw [← List.append_assoc, trim_snoc (h c (by simp)),
        ih fun d hd => h d (List.mem_append_left _ hd)]

/-- What ignores whitespace at both ends ignores trimming. -/
theorem trim_invariant {β : Type} {f : JSString → β}
    (hcons : ∀ c s, isWhitespace c → f (c :: s) = f s)
    (hsnoc : ∀ c s, isWhitespace c → f (s ++ [c]) = f s) (s : JSString) : f (trim s) = f s := by
  have hstart : ∀ s : JSString, f (s.dropWhile isWhitespace) = f s := by
    intro s
    induction s with
    | nil => rfl
    | cons c rest ih =>
        by_cases hc : isWhitespace c
        · rw [List.dropWhile_cons_of_pos hc, ih, hcons c rest hc]
        · rw [List.dropWhile_cons_of_neg hc]
  have hend : ∀ s : JSString, f (s.rdropWhile isWhitespace) = f s := by
    intro s
    induction s using List.reverseRecOn with
    | nil => rfl
    | append_singleton rest c ih =>
        by_cases hc : isWhitespace c
        · rw [List.rdropWhile_concat_pos _ _ _ hc, ih, hsnoc c rest hc]
        · rw [List.rdropWhile_concat_neg _ _ _ hc]
  rw [trim, hend, hstart]

/-- Trimming a text does not change its trimmed pieces between visible separators. -/
theorem split_trim {separator : CodeUnit} (hvisible : isWhitespace separator = false)
    (s : JSString) : (split (trim s) separator).map trim = (split s separator).map trim := by
  have hplain : ∀ {c piece}, isWhitespace c → separator ∉ piece →
      separator ∉ c :: piece ∧ separator ∉ piece ++ [c] := by
    intro c piece hc hpiece
    have hne : separator ≠ c := by
      rintro rfl
      simp [hvisible] at hc
    simp [hne, hpiece]
  refine @trim_invariant _ (fun s => (split s separator).map trim) ?_ ?_ s
  · intro c s hc
    induction s using @pieces_induction separator with
    | last piece hpiece =>
        simp only [split_no_separator (hplain hc hpiece).1, split_no_separator hpiece,
          List.map_cons, trim_cons hc]
    | next piece rest hpiece _ =>
        rw [← List.cons_append]
        simp only [split_append (hplain hc hpiece).1, split_append hpiece, List.map_cons,
          trim_cons hc]
  · intro c s hc
    induction s using @pieces_induction separator with
    | last piece hpiece =>
        simp only [split_no_separator (hplain hc hpiece).2, split_no_separator hpiece,
          List.map_cons, trim_snoc hc]
    | next piece rest hpiece ih =>
        rw [List.append_assoc, List.cons_append]
        simp only [split_append hpiece, List.map_cons, ih]

end JavaScript
