import AgentResolver.Skill.Lines

/-!
# Line endings of a document

The text with CR LF for every line feed (`crlf`) has the same lines, and a front matter opener or
closer where the text has one (`find_text_crlf`). The search in it starts on the line feed of the
opener's CR LF, one unit early, and the block keeps that line feed; no closer starts there, and
trimming removes it. So `parseSkillMd` reads both texts alike: `parse_skill_md_crlf`.
-/

namespace AgentResolver

open JavaScript

/-- The text with every line feed replaced by CR LF. -/
def crlf (s : JSString) : JSString :=
  s.flatMap fun c => if c = unit '\n' then [unit '\r', unit '\n'] else [c]

variable {s : JSString}

theorem crlf_line_feed (s : JSString) :
    crlf (unit '\n' :: s) = unit '\r' :: unit '\n' :: crlf s := rfl

theorem crlf_cons {c : CodeUnit} (h : c ≠ unit '\n') (s : JSString) :
    crlf (c :: s) = c :: crlf s := by
  rw [crlf, List.flatMap_cons, if_neg h]
  rfl

theorem crlf_append (s t : JSString) : crlf (s ++ t) = crlf s ++ crlf t := List.flatMap_append

/-- A line is left as it is. -/
theorem crlf_line {line : JSString} (h : unit '\n' ∉ line) : crlf line = line := by
  induction line with
  | nil => rfl
  | cons c rest ih =>
      rw [List.mem_cons, not_or] at h
      rw [crlf_cons (fun hc => h.1 hc.symm), ih h.2]

/-! ## Lines -/

theorem drop_return_of_not_mem {line : JSString} (h : unit '\r' ∉ line) :
    dropReturn line = line := by
  rw [dropReturn, if_neg]
  exact fun hlast => h (List.mem_of_getLast? hlast)

theorem drop_return_concat (line : JSString) : dropReturn (line ++ [unit '\r']) = line := by
  rw [dropReturn, List.getLast?_concat, if_pos rfl, List.dropLast_concat]

/-- Both line endings give the same lines. -/
theorem split_lines_crlf (h : unit '\r' ∉ s) : splitLines (crlf s) = splitLines s := by
  induction s using lines_induction with
  | last line hline => rw [crlf_line hline]
  | next line rest hline ih =>
      rw [List.mem_append, List.mem_cons, not_or, not_or] at h
      have hlong : unit '\n' ∉ line ++ [unit '\r'] := by
        rw [List.mem_append, List.mem_singleton, not_or]
        exact ⟨hline, by decide⟩
      rw [crlf_append, crlf_line hline, crlf_line_feed, List.append_cons, split_lines_next hlong,
        split_lines_next hline, drop_return_concat, drop_return_of_not_mem h.1, ih h.2.2]

theorem content_lines_crlf (h : unit '\r' ∉ s) : contentLines (crlf s) = contentLines s := by
  rw [contentLines, split_lines_crlf h, contentLines]

/-! ## Openers and closers -/

/-- The text with CR LF starts with a word that has CR LF where the text starts with the word. -/
theorem starts_with_crlf {word : JSString} (h : unit '\r' ∉ s) (hword : unit '\r' ∉ word) :
    startsWith (crlf s) (crlf word) = startsWith s word := by
  induction word generalizing s with
  | nil =>
      rw [startsWith, startsWith, List.isPrefixOf_nil_left]
      exact List.isPrefixOf_nil_left
  | cons d word ih =>
      rw [List.mem_cons, not_or] at hword
      cases s with
      | nil =>
          by_cases hd : d = unit '\n'
          · subst hd
            rfl
          · rw [crlf_cons hd]
            rfl
      | cons c rest =>
          rw [List.mem_cons, not_or] at h
          have hrest := ih h.2 hword.2
          by_cases hd : d = unit '\n'
          · subst hd
            by_cases hc : c = unit '\n'
            · subst hc
              rw [crlf_line_feed, crlf_line_feed, starts_with_cons, starts_with_cons,
                starts_with_cons, hrest, beq_self_eq_true, Bool.true_and]
            · rw [crlf_line_feed, crlf_cons hc, not_starts_with_cons h.1,
                not_starts_with_cons (Ne.symm hc)]
          · by_cases hc : c = unit '\n'
            · subst hc
              rw [crlf_line_feed, crlf_cons hd, not_starts_with_cons (Ne.symm hword.1),
                not_starts_with_cons hd]
            · rw [crlf_cons hd, crlf_cons hc, starts_with_cons, starts_with_cons, hrest]

/-- In the text with CR LF no line feed follows a line directly. -/
theorem not_starts_with_crlf {word : JSString} (hword : unit '\r' ∉ word) (s : JSString) :
    startsWith (crlf s) (word ++ [unit '\n']) = false := by
  induction word generalizing s with
  | nil =>
      cases s with
      | nil => rfl
      | cons c rest =>
          by_cases hc : c = unit '\n'
          · subst hc
            rfl
          · rw [crlf_cons hc, List.nil_append, not_starts_with_cons (Ne.symm hc)]
  | cons d word ih =>
      rw [List.mem_cons, not_or] at hword
      cases s with
      | nil => rfl
      | cons c rest =>
          by_cases hc : c = unit '\n'
          · subst hc
            rw [crlf_line_feed, List.cons_append, not_starts_with_cons (Ne.symm hword.1)]
          · rw [crlf_cons hc, List.cons_append, starts_with_cons, ih hword.2 rest, Bool.and_false]

/-- A search from a line feed finds the place that corresponds. -/
theorem find_text_crlf {word : JSString} (h : unit '\r' ∉ s) (hword : unit '\r' ∉ word) :
    findText (crlf (unit '\n' :: word)) (crlf s) =
      (findText (unit '\n' :: word) s).map fun index => (crlf (s.take index)).length := by
  have hpattern : unit '\r' ∉ unit '\n' :: word := by
    rw [List.mem_cons, not_or]
    exact ⟨by decide, hword⟩
  induction s with
  | nil => rfl
  | cons c rest ih =>
      have hstart := starts_with_crlf h hpattern
      rw [List.mem_cons, not_or] at h
      cases hfound : startsWith (c :: rest) (unit '\n' :: word) with
      | true =>
          rw [hfound] at hstart
          rw [find_text_start hstart, find_text_start hfound]
          rfl
      | false =>
          rw [hfound] at hstart
          rw [find_text_cons hfound]
          by_cases hc : c = unit '\n'
          · subst hc
            have hskip : startsWith (unit '\n' :: crlf rest) (crlf (unit '\n' :: word)) = false :=
              not_starts_with_cons (by decide) _ _
            rw [crlf_line_feed rest] at hstart ⊢
            rw [find_text_cons hstart, find_text_cons hskip, ih h.2, Option.map_map,
              Option.map_map, Option.map_map]
            rfl
          · rw [crlf_cons hc] at hstart ⊢
            rw [find_text_cons hstart, ih h.2, Option.map_map, Option.map_map]
            refine Option.map_congr fun index _ => ?_
            show (crlf (rest.take index)).length + 1 = (crlf ((c :: rest).take (index + 1))).length
            rw [List.take_succ_cons, crlf_cons hc, List.length_cons]

/-! ## Front matter -/

/-- The text after the first line of an opened text. -/
theorem opened_text {word : JSString} (h : startsWith s word) : ∃ rest, s = word ++ rest := by
  rw [startsWith, List.isPrefixOf_iff_prefix] at h
  obtain ⟨rest, hrest⟩ := h
  exact ⟨rest, hrest.symm⟩

/-- The text after the opener with CR LF. The search for the closer starts on the line feed of the
opener. -/
theorem opened_crlf (rest : JSString) :
    crlf (text "---\n" ++ rest) = text "---\r" ++ unit '\n' :: crlf rest := by
  rw [crlf_append]
  rfl

/-- The closer is found one unit later for the opener, and as many for each line before it. -/
theorem find_closer_crlf {rest : JSString} (h : unit '\r' ∉ rest) :
    indexOfFrom (crlf (text "---\n" ++ rest)) (text "\r\n" ++ text "---" ++ text "\r\n") 4 =
      (findText (unit '\n' :: text "---\n") rest).map fun index =>
        (crlf (rest.take index)).length + 1 + 4 := by
  have hskip : startsWith (unit '\n' :: crlf rest) (crlf (unit '\n' :: text "---\n")) = false :=
    not_starts_with_cons (by decide) _ _
  rw [opened_crlf]
  show (findText (crlf (unit '\n' :: text "---\n")) (unit '\n' :: crlf rest)).map (· + 4) = _
  rw [find_text_cons hskip, find_text_crlf h (by decide), Option.map_map, Option.map_map]
  rfl

/-- The block up to there, which starts with the line feed of the opener. -/
theorem block_crlf (rest : JSString) (index : Nat) :
    ((crlf (text "---\n" ++ rest)).take ((crlf (rest.take index)).length + 1 + 4)).drop 4 =
      unit '\n' :: crlf (rest.take index) := by
  rw [opened_crlf, List.drop_take, Nat.add_sub_cancel]
  show (unit '\n' :: crlf rest).take ((crlf (rest.take index)).length + 1) = _
  rw [List.take_succ_cons, ← List.take_append_drop index rest, crlf_append,
    List.take_append_drop index rest, List.take_left]

/-- Front matter is read alike with both line endings. -/
theorem parse_frontmatter_crlf (h : unit '\r' ∉ s) :
    parseFrontmatter (crlf s) = parseFrontmatter s := by
  have hword : unit '\r' ∉ text "---" := by decide
  have hlf : startsWith (crlf s) (text "---\n") = false :=
    not_starts_with_crlf hword s
  have hcrlf : startsWith s (text "---\r\n") = false := by
    rw [Bool.eq_false_iff]
    intro hstart
    obtain ⟨rest, rfl⟩ := opened_text hstart
    exact h (List.mem_append_left _ (by decide))
  have hopener : startsWith (crlf s) (text "---\r\n") = startsWith s (text "---\n") :=
    @starts_with_crlf s (text "---\n") h (by decide)
  unfold parseFrontmatter
  rw [hlf, hcrlf, hopener]
  cases hopen : startsWith s (text "---\n") with
  | false => rfl
  | true =>
      obtain ⟨rest, rfl⟩ := opened_text hopen
      have hrest : unit '\r' ∉ rest := fun hmem => h (List.mem_append_right _ hmem)
      have hclose : indexOfFrom (text "---\n" ++ rest) (text "\n" ++ text "---" ++ text "\n") 4 =
          (findText (unit '\n' :: text "---\n") rest).map (· + 4) := rfl
      simp only [Bool.not_true, Bool.not_false, Bool.and_true, Bool.and_false, Bool.false_eq_true,
        if_false, if_true, find_closer_crlf hrest, hclose]
      cases findText (unit '\n' :: text "---\n") rest with
      | none => rfl
      | some index =>
          have hblock : ((text "---\n" ++ rest).take (index + 4)).drop 4 = rest.take index := by
            rw [List.drop_take, Nat.add_sub_cancel]
            rfl
          have hshort : unit '\r' ∉ rest.take index := fun hmem => hrest (List.mem_of_mem_take hmem)
          simp only [Option.map_some, block_crlf, hblock, front_matter_trim]
          rw [content_lines_cons (by decide), content_lines_crlf hshort]

/-- Documents are read alike with both line endings. -/
theorem parse_skill_md_crlf (h : unit '\r' ∉ s) : parseSkillMd (crlf s) = parseSkillMd s := by
  have hheading : parseHeadingMetadata (crlf s) = parseHeadingMetadata s := by
    unfold parseHeadingMetadata
    rw [split_lines_crlf h]
  rw [parseSkillMd, parseSkillMd, parse_frontmatter_crlf h, hheading]

theorem parse_skill_md_crlf_example :
    parseSkillMd (text "---\r\nname: Agent\r\n---\r\n") =
      parseSkillMd (text "---\nname: Agent\n---\n") :=
  @parse_skill_md_crlf (text "---\nname: Agent\n---\n") (by decide)

end AgentResolver
