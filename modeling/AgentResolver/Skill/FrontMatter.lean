import AgentResolver.Skill.Lines

/-!
# Round trip of front matter

A document made of `---`, a line for each pair, `---` and a body. The closer is searched from the
second line on, as a `---` line between two line feeds (`find_close`): it is not seen on the second
line, where it stands when there are no pairs, nor on the last line, where it stands when there is
no body. `front_matter_round_trip_iff` says when the pairs are read back all the same.
-/

namespace AgentResolver

open JavaScript

/-- A pair that a front matter line can carry. -/
structure IsFrontMatterPair (pair : JSString × JSString) : Prop where
  key_ne : pair.1 ≠ []
  key_trimmed : Trimmed pair.1
  key_colon : unit ':' ∉ pair.1
  key_line : unit '\n' ∉ pair.1
  key_comment : pair.1.head? ≠ some (unit '#')
  key_proto : pair.1 ≠ text "__proto__"
  value_trimmed : Trimmed pair.2
  value_line : unit '\n' ∉ pair.2
  value_head : ∀ c, pair.2.head? = some c → isQuote c = false
  value_last : ∀ c, pair.2.getLast? = some c → isQuote c = false

/-- The line of a pair. -/
def pairLine (pair : JSString × JSString) : JSString := pair.1 ++ text ": " ++ pair.2

/-- The document with the given pairs and body lines. -/
def frontMatterText (pairs : Properties JSString) (body : List JSString) : JSString :=
  join (text "---" :: pairs.map pairLine ++ text "---" :: body) (text "\n")

/-- The trimmed text before the first colon of a line. -/
def entryKey (line : JSString) : JSString := trim ((trim line).takeWhile (· != unit ':'))

/-- A line without an entry: a comment, or without a colon, or without a key that can be set. -/
def IsIgnored (line : JSString) : Prop :=
  (trim line).head? = some (unit '#') ∨ unit ':' ∉ trim line ∨ entryKey line = [] ∨
    entryKey line = text "__proto__"

instance (line : JSString) : Decidable (IsIgnored line) :=
  inferInstanceAs (Decidable ((trim line).head? = some (unit '#') ∨ unit ':' ∉ trim line ∨
    entryKey line = [] ∨ entryKey line = text "__proto__"))

/-! ## One line -/

theorem starts_with_unit {s : JSString} {c : CodeUnit} :
    startsWith s [c] = true ↔ s.head? = some c := by
  cases s with
  | nil =>
      constructor
      · intro h
        cases h
      · intro h
        cases h
  | cons d rest =>
      rw [starts_with_cons, startsWith, List.isPrefixOf_nil_left, Bool.and_true, beq_iff_eq,
        List.head?_cons, Option.some.injEq, eq_comm]

/-- A text with a colon, at its first colon. -/
theorem colon_split {s : JSString} (h : unit ':' ∈ s) :
    ∃ before after, s = before ++ unit ':' :: after ∧ unit ':' ∉ before := by
  obtain ⟨before, after, hnot, hsplit⟩ := List.eq_append_cons_of_mem h
  exact ⟨before, after, hnot, hsplit⟩

variable {line before after : JSString}

/-- The key of a line, at its first colon. -/
theorem entry_key_eq (htrim : trim line = before ++ unit ':' :: after)
    (hbefore : unit ':' ∉ before) : entryKey line = trim before := by
  have hall : ∀ c ∈ before, (c != unit ':') = true := by
    intro c hc
    rw [bne_iff_ne]
    rintro rfl
    exact hbefore hc
  rw [entryKey, htrim, List.takeWhile_append_of_pos hall, List.takeWhile_cons_of_neg (by simp),
    List.append_nil]

/-- What a line with a colon sets. -/
theorem front_matter_line_eq (hcomment : (trim line).head? ≠ some (unit '#'))
    (htrim : trim line = before ++ unit ':' :: after) (hbefore : unit ':' ∉ before)
    (metadata : Properties JSString) :
    frontmatterLine metadata line =
      if entryKey line = [] ∨ entryKey line = text "__proto__" then metadata
      else setProperty metadata (entryKey line) (stripQuotes (trim after)) := by
  have hstart : startsWith (trim line) [unit '#'] = false := by
    rw [Bool.eq_false_iff]
    exact fun h => hcomment (starts_with_unit.mp h)
  have hblank : (trim line).isEmpty = false := by
    rw [htrim]
    simp
  have hindex : indexOf (trim line) (unit ':') = some before.length := by
    rw [htrim]
    exact index_of_append hbefore
  have htake : (trim line).take before.length = before := by
    rw [htrim, List.take_left]
  have hdrop : (trim line).drop (before.length + 1) = after := by
    rw [htrim, List.append_cons, List.drop_left' (by simp)]
  rw [entry_key_eq htrim hbefore]
  simp only [frontmatterLine, hstart, hblank, hindex, htake, hdrop, Bool.or_self,
    Bool.false_eq_true, if_false, Bool.or_eq_true, List.isEmpty_iff, decide_eq_true_eq]

/-- A line without an entry changes nothing. -/
theorem front_matter_line_ignored (h : IsIgnored line) (metadata : Properties JSString) :
    frontmatterLine metadata line = metadata := by
  by_cases hcomment : (trim line).head? = some (unit '#')
  · simp only [frontmatterLine, starts_with_unit.mpr hcomment, Bool.or_true, if_true]
  · by_cases hcolon : unit ':' ∈ trim line
    · obtain ⟨before, after, htrim, hbefore⟩ := colon_split hcolon
      rw [front_matter_line_eq hcomment htrim hbefore, if_pos]
      rcases h with h | h | h
      · exact absurd h hcomment
      · exact absurd hcolon h
      · exact h
    · simp only [frontmatterLine, index_of_none hcolon, ite_self]

theorem set_property_ne_nil {α : Type} (object : Properties α) (key : JSString) (value : α) :
    setProperty object key value ≠ [] := by
  cases object with
  | nil => simp [setProperty]
  | cons entry rest =>
      rw [setProperty]
      split
      · simp
      · simp

/-- A line with an entry leaves a property. -/
theorem front_matter_line_entry (h : ¬ IsIgnored line) (metadata : Properties JSString) :
    frontmatterLine metadata line ≠ [] := by
  simp only [IsIgnored, not_or, not_not] at h
  obtain ⟨hcomment, hcolon, hkey, hproto⟩ := h
  obtain ⟨before, after, htrim, hbefore⟩ := colon_split hcolon
  rw [front_matter_line_eq hcomment htrim hbefore, if_neg (not_or.mpr ⟨hkey, hproto⟩)]
  exact set_property_ne_nil _ _ _

/-- Properties are never removed. -/
theorem front_matter_fold_ne_nil {lines : List JSString} {metadata : Properties JSString}
    (h : metadata ≠ []) : lines.foldl frontmatterLine metadata ≠ [] := by
  induction lines generalizing metadata with
  | nil => exact h
  | cons line rest ih =>
      refine ih ?_
      by_cases hline : IsIgnored line
      · rw [front_matter_line_ignored hline]
        exact h
      · exact front_matter_line_entry hline metadata

/-- Lines give no metadata exactly when they are all ignored. -/
theorem front_matter_fold_nil_iff {lines : List JSString} :
    lines.foldl frontmatterLine [] = [] ↔ ∀ line ∈ lines, IsIgnored line := by
  induction lines with
  | nil => simp
  | cons line rest ih =>
      rw [List.foldl_cons, List.forall_mem_cons]
      by_cases hline : IsIgnored line
      · rw [front_matter_line_ignored hline, ih]
        simp [hline]
      · have hne := @front_matter_fold_ne_nil rest _ (front_matter_line_entry hline [])
        simp [hline, hne]

/-! ## The line of a pair -/

section

variable {pair : JSString × JSString}

theorem pair_line_eq (pair : JSString × JSString) :
    pairLine pair = pair.1 ++ unit ':' :: unit ' ' :: pair.2 := by
  rw [pairLine, List.append_assoc]
  rfl

/-- A key and what follows it, up to its last visible unit. -/
theorem IsFrontMatterPair.trimmed_append (h : IsFrontMatterPair pair) {tail : JSString}
    (hne : tail ≠ []) (hlast : ∀ c, tail.getLast? = some c → isWhitespace c = false) :
    Trimmed (pair.1 ++ tail) := by
  refine trimmed_of_head_last ?_ ?_
  · intro c hc
    obtain ⟨d, rest, hkey⟩ := List.exists_cons_of_ne_nil h.key_ne
    rw [hkey] at hc
    exact h.key_trimmed.head (by rw [hkey]; exact hc)
  · intro c hc
    rw [List.getLast?_append_of_ne_nil _ hne] at hc
    exact hlast c hc

/-- The line of a pair is trimmed, but for the space before a value that is empty. -/
theorem pair_line_trim (h : IsFrontMatterPair pair) :
    ∃ after, trim (pairLine pair) = pair.1 ++ unit ':' :: after ∧ trim after = pair.2 := by
  rw [pair_line_eq]
  by_cases hvalue : pair.2 = []
  · refine ⟨[], ?_, hvalue.symm⟩
    have htrimmed : Trimmed (pair.1 ++ [unit ':']) := by
      refine h.trimmed_append (by simp) ?_
      intro c hc
      obtain rfl := Option.some.inj hc
      decide
    rw [hvalue, List.append_cons, trim_snoc (by decide)]
    exact htrimmed
  · refine ⟨unit ' ' :: pair.2, ?_, ?_⟩
    · refine h.trimmed_append (by simp) ?_
      intro c hc
      obtain ⟨d, rest, hpair⟩ := List.exists_cons_of_ne_nil hvalue
      rw [hpair, List.getLast?_cons_cons, List.getLast?_cons_cons, ← hpair] at hc
      exact h.value_trimmed.last hc
    · rw [trim_cons (by decide)]
      exact h.value_trimmed

/-- Values without quotes at their ends are kept. -/
theorem strip_quotes_eq {value : JSString} (hhead : ∀ c, value.head? = some c → isQuote c = false)
    (hlast : ∀ c, value.getLast? = some c → isQuote c = false) : stripQuotes value = value := by
  have hnone : ∀ found : Option CodeUnit, (∀ c, found = some c → isQuote c = false) →
      ¬ found.any isQuote = true := by
    intro found hfound
    cases found with
    | none => simp
    | some c => simp [hfound c rfl]
  rw [stripQuotes, if_neg (hnone _ hhead), if_neg (hnone _ hlast)]

/-- The line of a pair sets it. -/
theorem front_matter_line_pair (h : IsFrontMatterPair pair) (metadata : Properties JSString) :
    frontmatterLine metadata (pairLine pair) = setProperty metadata pair.1 pair.2 := by
  obtain ⟨after, htrim, hvalue⟩ := pair_line_trim h
  have hkey : entryKey (pairLine pair) = pair.1 := by
    rw [entry_key_eq htrim h.key_colon]
    exact h.key_trimmed
  have hcomment : (trim (pairLine pair)).head? ≠ some (unit '#') := by
    obtain ⟨d, rest, hpair⟩ := List.exists_cons_of_ne_nil h.key_ne
    have hhead := h.key_comment
    rw [hpair] at hhead
    rw [htrim, hpair]
    exact hhead
  rw [front_matter_line_eq hcomment htrim h.key_colon, hkey,
    if_neg (not_or.mpr ⟨h.key_ne, h.key_proto⟩), hvalue,
    strip_quotes_eq h.value_head h.value_last]

/-- The line of a pair is one line and no delimiter. -/
theorem pair_line_plain (h : IsFrontMatterPair pair) :
    unit '\n' ∉ pairLine pair ∧ pairLine pair ≠ text "---" := by
  rw [pair_line_eq]
  refine ⟨?_, ?_⟩
  · rw [List.mem_append, List.mem_cons, List.mem_cons]
    rintro (hkey | hcolon | hspace | hvalue)
    · exact h.key_line hkey
    · exact absurd hcolon (by decide)
    · exact absurd hspace (by decide)
    · exact h.value_line hvalue
  · intro heq
    have hmem : unit ':' ∈ text "---" := heq ▸ List.mem_append_right _ List.mem_cons_self
    exact absurd hmem (by decide)

end

/-- The lines of pairs with distinct keys give the pairs. -/
theorem front_matter_fold_pairs {pairs base : Properties JSString}
    (h : ∀ pair ∈ pairs, IsFrontMatterPair pair)
    (hdistinct : ((base ++ pairs).map Prod.fst).Nodup) :
    (pairs.map pairLine).foldl frontmatterLine base = base ++ pairs := by
  induction pairs generalizing base with
  | nil => simp
  | cons pair rest ih =>
      have hfresh : ∀ entry ∈ base, entry.1 ≠ pair.1 := by
        intro entry hentry heq
        rw [List.map_append, List.nodup_append] at hdistinct
        exact hdistinct.2.2 _ (List.mem_map_of_mem hentry) _
          (List.mem_map_of_mem List.mem_cons_self) heq
      rw [List.map_cons, List.foldl_cons, front_matter_line_pair (h pair List.mem_cons_self),
        set_property_fresh hfresh,
        ih (fun p hp => h p (List.mem_cons_of_mem _ hp)) (by simpa using hdistinct),
        List.append_assoc, List.singleton_append]

/-! ## The closer -/

/-- The lines in front of the first delimiter that is not the last line. -/
def closedLines : List JSString → Option (List JSString)
  | [] => none
  | line :: rest =>
      if line = text "---" ∧ rest ≠ [] then some []
      else (closedLines rest).map (line :: ·)

/-- Where the closed lines are. -/
theorem closed_lines_iff {lines before : List JSString} :
    closedLines lines = some before ↔
      ∃ after, lines = before ++ text "---" :: after ∧ after ≠ [] ∧ text "---" ∉ before := by
  induction lines generalizing before with
  | nil => simp [closedLines]
  | cons line rest ih =>
      rw [closedLines]
      split
      · rename_i h
        obtain ⟨rfl, hrest⟩ := h
        constructor
        · intro heq
          obtain rfl := Option.some.inj heq
          exact ⟨rest, rfl, hrest, List.not_mem_nil⟩
        · rintro ⟨after, hsplit, -, hnot⟩
          cases before with
          | nil => rfl
          | cons first before =>
              obtain ⟨rfl, -⟩ := List.cons.inj hsplit
              exact absurd List.mem_cons_self hnot
      · rename_i h
        rw [Option.map_eq_some_iff]
        constructor
        · rintro ⟨more, hmore, rfl⟩
          obtain ⟨after, rfl, hafter, hnot⟩ := ih.mp hmore
          refine ⟨after, rfl, hafter, ?_⟩
          rw [List.mem_cons, not_or]
          exact ⟨fun heq => h ⟨heq.symm, by simp⟩, hnot⟩
        · rintro ⟨after, hsplit, hafter, hnot⟩
          cases before with
          | nil =>
              obtain ⟨rfl, rfl⟩ := List.cons.inj hsplit
              exact absurd ⟨rfl, hafter⟩ h
          | cons first before =>
              obtain ⟨rfl, rfl⟩ := List.cons.inj hsplit
              exact ⟨before, ih.mpr ⟨after, rfl, hafter,
                fun hmem => hnot (List.mem_cons_of_mem _ hmem)⟩, rfl⟩

theorem join_next (line next : JSString) (rest : List JSString) :
    join (line :: next :: rest) (text "\n") =
      line ++ unit '\n' :: join (next :: rest) (text "\n") := by
  rw [join, List.intercalate_cons_cons, List.append_assoc]
  rfl

theorem join_last (line : JSString) : join [line] (text "\n") = line :=
  List.intercalate_singleton

/-- The search passes over a line. -/
theorem find_text_line {word rest : JSString} (h : unit '\n' ∉ line) :
    findText (unit '\n' :: word) (line ++ rest) =
      (findText (unit '\n' :: word) rest).map (· + line.length) := by
  induction line with
  | nil => simp
  | cons c line ih =>
      rw [List.mem_cons, not_or] at h
      have hskip : startsWith (c :: (line ++ rest)) (unit '\n' :: word) = false :=
        not_starts_with_cons h.1 _ _
      rw [List.cons_append, find_text_cons hskip, ih h.2, Option.map_map]
      exact Option.map_congr fun index _ => rfl

/-- The closer in joined lines: after the lines in front of the delimiter that ends them, wherever
that is but on the first line and on the last one. -/
theorem find_close {first : JSString} {others : List JSString}
    (hlines : ∀ line ∈ first :: others, unit '\n' ∉ line) :
    findText (unit '\n' :: (text "---" ++ [unit '\n'])) (join (first :: others) (text "\n")) =
      (closedLines others).map fun before => (join (first :: before) (text "\n")).length := by
  induction others generalizing first with
  | nil =>
      have hfirst := @find_text_line first (text "---" ++ [unit '\n']) []
        (hlines first List.mem_cons_self)
      rw [join_last, ← List.append_nil first, hfirst]
      rfl
  | cons next rest ih =>
      have hnext := hlines next (by simp)
      have hrest := @ih next fun line hline => hlines line (List.mem_cons_of_mem _ hline)
      have hstart :
          startsWith (join (next :: rest) (text "\n")) (text "---" ++ [unit '\n']) = true ↔
          next = text "---" ∧ rest ≠ [] := by
        cases rest with
        | nil =>
            rw [join_last, not_starts_with_last hnext]
            simp
        | cons line rest =>
            rw [join_next, starts_with_next (by decide) hnext]
            simp
      rw [join_next, find_text_line (hlines first List.mem_cons_self), closedLines]
      by_cases hclose : next = text "---" ∧ rest ≠ []
      · have hfound : startsWith (unit '\n' :: join (next :: rest) (text "\n"))
            (unit '\n' :: (text "---" ++ [unit '\n'])) := by
          rw [starts_with_cons, hstart.mpr hclose, beq_self_eq_true, Bool.true_and]
        rw [if_pos hclose, find_text_start hfound, Option.map_some, Option.map_some, join_last,
          Nat.zero_add]
      · have hmissed : startsWith (unit '\n' :: join (next :: rest) (text "\n"))
            (unit '\n' :: (text "---" ++ [unit '\n'])) = false := by
          rw [starts_with_cons, Bool.eq_false_iff.mpr fun h => hclose (hstart.mp h), Bool.and_false]
        rw [if_neg hclose, find_text_cons hmissed, hrest, Option.map_map, Option.map_map,
          Option.map_map]
        refine Option.map_congr fun before _ => ?_
        show (join (next :: before) (text "\n")).length + 1 + first.length =
          (join (first :: next :: before) (text "\n")).length
        rw [join_next, List.length_append, List.length_cons]
        omega

/-! ## Whole documents -/

/-- The loop over joined lines reads the lines. -/
theorem front_matter_fold_join {lines : List JSString} (hne : lines ≠ [])
    (hlines : ∀ line ∈ lines, unit '\n' ∉ line) (metadata : Properties JSString) :
    (contentLines (join lines (text "\n"))).foldl frontmatterLine metadata =
      lines.foldl frontmatterLine metadata := by
  induction lines generalizing metadata with
  | nil => exact absurd rfl hne
  | cons line rest ih =>
      have hline := hlines line List.mem_cons_self
      have hone : (contentLines line).foldl frontmatterLine metadata =
          frontmatterLine metadata line := by
        rw [← front_matter_content, split_lines_last hline]
        rfl
      cases rest with
      | nil =>
          rw [join_last, hone]
          rfl
      | cons next rest =>
          rw [join_next, content_lines_next hline, List.foldl_append, hone,
            ih (by simp) fun other hother => hlines other (List.mem_cons_of_mem _ hother)]
          rfl

variable {first : JSString} {others : List JSString}

/-- The lines of a block are a prefix of the lines it is in. -/
theorem join_take {before after : List JSString} (hafter : after ≠ []) :
    (join (first :: (before ++ after)) (text "\n")).take
        (join (first :: before) (text "\n")).length =
      join (first :: before) (text "\n") := by
  induction before generalizing first with
  | nil =>
      obtain ⟨next, rest, rfl⟩ := List.exists_cons_of_ne_nil hafter
      rw [List.nil_append, join_next, join_last, List.take_left]
  | cons next before ih =>
      rw [List.cons_append, join_next, join_next, List.length_append, List.length_cons,
        List.take_length_add_append, List.take_succ_cons, ih]

/-- A document that opens front matter, up to its closer. -/
theorem parse_opened (hlines : ∀ line ∈ first :: others, unit '\n' ∉ line) :
    parseFrontmatter (join (text "---" :: first :: others) (text "\n")) =
      ((closedLines others).elim (.error ⟨text "frontmatter is not closed"⟩) fun before =>
        .ok (some ((first :: before).foldl frontmatterLine []))) := by
  have hlf : startsWith (text "---" ++ unit '\n' :: join (first :: others) (text "\n"))
      (text "---\n") = true := (starts_with_next (by decide) (by decide)).mpr rfl
  have hcrlf : startsWith (text "---" ++ unit '\n' :: join (first :: others) (text "\n"))
      (text "---\r\n") = false := by
    rw [Bool.eq_false_iff]
    intro h
    exact absurd ((@starts_with_next _ _ (text "---\r") (by decide) (by decide)).mp h) (by decide)
  have hclose : indexOfFrom (text "---" ++ unit '\n' :: join (first :: others) (text "\n"))
      (text "\n" ++ text "---" ++ text "\n") 4 =
        (closedLines others).map fun before =>
          (join (first :: before) (text "\n")).length + 4 := by
    show (findText (unit '\n' :: (text "---" ++ [unit '\n']))
      (join (first :: others) (text "\n"))).map (· + 4) = _
    rw [find_close hlines, Option.map_map]
    rfl
  rw [join_next, parseFrontmatter, hlf, hcrlf]
  simp only [Bool.not_true, Bool.false_and, Bool.false_eq_true, if_false, hclose]
  cases hclosed : closedLines others with
  | none => rfl
  | some before =>
      obtain ⟨after, rfl, -, -⟩ := closed_lines_iff.mp hclosed
      have hblock : ((text "---" ++ unit '\n' :: join (first :: (before ++ text "---" :: after))
          (text "\n")).take ((join (first :: before) (text "\n")).length + 4)).drop 4 =
            join (first :: before) (text "\n") := by
        rw [List.drop_take, Nat.add_sub_cancel]
        exact join_take (by simp)
      have hplain : ∀ line ∈ first :: before, unit '\n' ∉ line := by
        intro line hline
        refine hlines line ?_
        rw [← List.cons_append]
        exact List.mem_append_left _ hline
      simp only [Option.map_some, Option.elim_some, hblock, front_matter_trim]
      rw [front_matter_fold_join (by simp) hplain]

/-- The delimiter after lines that are none. -/
theorem closed_lines_append {lines body : List JSString} (h : text "---" ∉ lines) :
    closedLines (lines ++ text "---" :: body) = if body = [] then none else some lines := by
  induction lines with
  | nil =>
      rw [List.nil_append, closedLines]
      by_cases hbody : body = []
      · subst hbody
        rfl
      · rw [if_pos ⟨rfl, hbody⟩, if_neg hbody]
  | cons line rest ih =>
      rw [List.mem_cons, not_or] at h
      rw [List.cons_append, closedLines, if_neg fun hline => h.1 hline.1.symm, ih h.2]
      split
      · rfl
      · rfl

theorem parse_skill_md_closed {content : JSString} {metadata : Properties JSString}
    (h : parseFrontmatter content = .ok (some metadata)) :
    parseSkillMd content = ⟨metadata, []⟩ := by
  rw [parseSkillMd, h]

theorem parse_skill_md_unclosed {content : JSString} {error : JSError}
    (h : parseFrontmatter content = .error error) :
    parseSkillMd content = ⟨parseHeadingMetadata content, [error.message]⟩ := by
  rw [parseSkillMd, h]

/-- The delimiter itself is no entry. -/
theorem delimiter_ignored : IsIgnored (text "---") := by decide

/-- Without pairs, the closer right after the opener is missed, and a later one of the body is
taken. -/
theorem no_pairs_round_trip {body : List JSString} (hbody : ∀ line ∈ body, unit '\n' ∉ line) :
    ((parseSkillMd (frontMatterText [] body)).metadata = [] ∧
      (parseSkillMd (frontMatterText [] body)).warnings = []) ↔
        ∃ before after, body = before ++ text "---" :: after ∧ after ≠ [] ∧
          text "---" ∉ before ∧ ∀ line ∈ before, IsIgnored line := by
  have htext :
      frontMatterText [] body = join (text "---" :: text "---" :: body) (text "\n") := rfl
  have hparse := parse_opened (List.forall_mem_cons.mpr ⟨by decide, hbody⟩ :
    ∀ line ∈ text "---" :: body, unit '\n' ∉ line)
  rw [htext]
  cases hclosed : closedLines body with
  | none =>
      rw [hclosed] at hparse
      rw [parse_skill_md_unclosed hparse]
      constructor
      · rintro ⟨-, hwarnings⟩
        cases hwarnings
      · rintro ⟨before, after, hbodyEq, hafter, hnot, -⟩
        have hsome := closed_lines_iff.mpr ⟨after, hbodyEq, hafter, hnot⟩
        rw [hclosed] at hsome
        cases hsome
  | some before =>
      rw [hclosed] at hparse
      rw [parse_skill_md_closed hparse, List.foldl_cons,
        front_matter_line_ignored delimiter_ignored, front_matter_fold_nil_iff]
      obtain ⟨after, hbodyEq, hafter, hnot⟩ := closed_lines_iff.mp hclosed
      constructor
      · rintro ⟨hignored, -⟩
        exact ⟨before, after, hbodyEq, hafter, hnot, hignored⟩
      · rintro ⟨before', after', hbodyEq', hafter', hnot', hignored⟩
        have hsome := closed_lines_iff.mpr ⟨after', hbodyEq', hafter', hnot'⟩
        rw [hclosed] at hsome
        obtain rfl := Option.some.inj hsome
        exact ⟨hignored, rfl⟩

/-- With pairs, the closer is found unless it is the last line. -/
theorem some_pairs_round_trip {pair : JSString × JSString} {rest : Properties JSString}
    {body : List JSString} (hpairs : ∀ other ∈ pair :: rest, IsFrontMatterPair other)
    (hdistinct : ((pair :: rest).map Prod.fst).Nodup) (hbody : ∀ line ∈ body, unit '\n' ∉ line) :
    ((parseSkillMd (frontMatterText (pair :: rest) body)).metadata = pair :: rest ∧
      (parseSkillMd (frontMatterText (pair :: rest) body)).warnings = []) ↔ body ≠ [] := by
  have htext : frontMatterText (pair :: rest) body = join (text "---" :: pairLine pair ::
      (rest.map pairLine ++ text "---" :: body)) (text "\n") := rfl
  have hrest : text "---" ∉ rest.map pairLine := by
    intro hmem
    obtain ⟨other, hother, heq⟩ := List.mem_map.mp hmem
    exact (pair_line_plain (hpairs other (List.mem_cons_of_mem _ hother))).2 heq
  have hlines : ∀ line ∈ pairLine pair :: (rest.map pairLine ++ text "---" :: body),
      unit '\n' ∉ line := by
    rw [← List.cons_append, ← List.map_cons]
    intro line hline
    rcases List.mem_append.mp hline with hline | hline
    · obtain ⟨other, hother, rfl⟩ := List.mem_map.mp hline
      exact (pair_line_plain (hpairs other hother)).1
    · rcases List.mem_cons.mp hline with rfl | hline
      · decide
      · exact hbody line hline
  have hparse := parse_opened hlines
  rw [closed_lines_append hrest] at hparse
  rw [htext]
  by_cases hempty : body = []
  · rw [if_pos hempty] at hparse
    rw [parse_skill_md_unclosed hparse]
    simp [hempty]
  · rw [if_neg hempty] at hparse
    have hfold := @front_matter_fold_pairs (pair :: rest) [] hpairs hdistinct
    rw [parse_skill_md_closed hparse, ← List.map_cons, hfold]
    simp [hempty]

/-- The pairs are read back without a warning exactly when there is a body and, when there are no
pairs, the body closes the front matter after lines without entries. -/
theorem front_matter_round_trip_iff {pairs : Properties JSString} {body : List JSString}
    (hpairs : ∀ pair ∈ pairs, IsFrontMatterPair pair) (hdistinct : (pairs.map Prod.fst).Nodup)
    (hbody : ∀ line ∈ body, unit '\n' ∉ line) :
    ((parseSkillMd (frontMatterText pairs body)).metadata = pairs ∧
      (parseSkillMd (frontMatterText pairs body)).warnings = []) ↔
        body ≠ [] ∧ (pairs = [] → ∃ before after, body = before ++ text "---" :: after ∧
          after ≠ [] ∧ text "---" ∉ before ∧ ∀ line ∈ before, IsIgnored line) := by
  cases pairs with
  | nil =>
      rw [no_pairs_round_trip hbody]
      constructor
      · rintro ⟨before, after, hsplit⟩
        exact ⟨by simp [hsplit.1], fun _ => ⟨before, after, hsplit⟩⟩
      · exact fun h => h.2 rfl
  | cons pair rest =>
      rw [some_pairs_round_trip hpairs hdistinct hbody]
      exact ⟨fun hnonempty => ⟨hnonempty, fun hnone => by cases hnone⟩, And.left⟩

/-- A pair whose value is a word without quotes. -/
theorem name_agent_pair : IsFrontMatterPair (text "name", text "Agent") where
  key_ne := by decide
  key_trimmed := by decide
  key_colon := by decide
  key_line := by decide
  key_comment := by decide
  key_proto := by decide
  value_trimmed := by decide
  value_line := by decide
  value_head c h := by
    obtain rfl := Option.some.inj h
    decide
  value_last c h := by
    obtain rfl := Option.some.inj h
    decide

/-- A pair before a body that has a delimiter of its own. -/
theorem front_matter_round_trip_iff_example :
    (parseSkillMd (frontMatterText [(text "name", text "Agent")]
      [text "---", text "key: value"])).metadata = [(text "name", text "Agent")] := by
  have h := (@front_matter_round_trip_iff [(text "name", text "Agent")]
    [text "---", text "key: value"] (List.forall_mem_singleton.mpr name_agent_pair) (by decide)
    (by decide)).mpr ⟨by decide, by simp⟩
  exact h.1

/-- Without a body the closer is the last line, and without pairs it is the second one. -/
theorem front_matter_not_closed :
    (IsFrontMatterPair (text "name", text "Agent") ∧
      (parseSkillMd (frontMatterText [(text "name", text "Agent")] [])).warnings =
        [text "frontmatter is not closed"]) ∧
      (parseSkillMd (frontMatterText [] [text "Body"])).warnings =
        [text "frontmatter is not closed"] :=
  ⟨⟨name_agent_pair, by decide⟩, by decide⟩

end AgentResolver
