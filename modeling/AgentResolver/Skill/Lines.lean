import AgentResolver.Skill.Document

/-!
# Lines of a document

A text is read line by line: it has no line feed, or it is a line, a line feed and another text.
`lines_induction` is induction along that reading. What `parseSkillMd` keeps of a block of text is
its content lines, trimmed and without the blank ones, which whitespace around the text does not
change (`content_lines_trim`).
-/

namespace AgentResolver

open JavaScript

/-- Induction on the lines of a text. -/
theorem lines_induction {motive : JSString → Prop}
    (last : ∀ line, unit '\n' ∉ line → motive line)
    (next : ∀ line rest, unit '\n' ∉ line → motive rest → motive (line ++ unit '\n' :: rest))
    (s : JSString) : motive s :=
  pieces_induction last next s

/-! ## Split lines -/

/-- The line before a line feed, without the carriage return of a CR LF. -/
def dropReturn (line : JSString) : JSString :=
  if line.getLast? = some (unit '\r') then line.dropLast else line

variable {line rest : JSString}

theorem split_lines_last (h : unit '\n' ∉ line) : splitLines line = [line] := by
  rw [splitLines, split_no_separator h]
  rfl

theorem split_lines_next (h : unit '\n' ∉ line) :
    splitLines (line ++ unit '\n' :: rest) = dropReturn line :: splitLines rest := by
  obtain ⟨first, more, hrest⟩ :=
    List.exists_cons_of_ne_nil (List.splitOn_ne_nil (unit '\n') rest)
  have hrest : split rest (unit '\n') = first :: more := hrest
  rw [splitLines, split_append h, splitLines, hrest]
  rfl

/-- The carriage return is whitespace, so trimming does not see whether it was dropped. -/
theorem trim_drop_return (line : JSString) : trim (dropReturn line) = trim line := by
  unfold dropReturn
  split
  · rename_i hlast
    obtain ⟨start, rfl⟩ := List.getLast?_eq_some_iff.mp hlast
    rw [List.dropLast_concat, trim_snoc (by decide)]
  · rfl

theorem starts_with_cons (c d : CodeUnit) (s word : JSString) :
    startsWith (c :: s) (d :: word) = (d == c && startsWith s word) := rfl

/-- Texts that start with different units. -/
theorem not_starts_with_cons {c d : CodeUnit} (h : d ≠ c) (s word : JSString) :
    startsWith (c :: s) (d :: word) = false := by
  rw [starts_with_cons, beq_eq_false_iff_ne.mpr h, Bool.false_and]

/-- A text starts with a whole line exactly when this is its first line. -/
theorem starts_with_next {word : JSString} (hword : unit '\n' ∉ word) (h : unit '\n' ∉ line) :
    startsWith (line ++ unit '\n' :: rest) (word ++ [unit '\n']) ↔ line = word := by
  rw [startsWith, List.isPrefixOf_iff_prefix]
  induction line generalizing word with
  | nil =>
      cases word with
      | nil => simp
      | cons d word =>
          rw [List.nil_append, List.cons_append, List.cons_prefix_cons]
          simp [show d ≠ unit '\n' by rintro rfl; simp at hword]
  | cons c line ih =>
      have hc : c ≠ unit '\n' := by
        rintro rfl
        simp at h
      cases word with
      | nil => simp [hc.symm]
      | cons d word =>
          have hline : unit '\n' ∉ line := fun hmem => h (List.mem_cons_of_mem c hmem)
          have hrest : unit '\n' ∉ word := fun hmem => hword (List.mem_cons_of_mem d hmem)
          rw [List.cons_append, List.cons_append, List.cons_prefix_cons, ih hrest hline,
            List.cons.injEq, eq_comm]

/-- A text without a line feed starts with no whole line. -/
theorem not_starts_with_last {word : JSString} (h : unit '\n' ∉ line) :
    startsWith line (word ++ [unit '\n']) = false := by
  rw [Bool.eq_false_iff]
  intro hstart
  rw [startsWith, List.isPrefixOf_iff_prefix] at hstart
  exact h (hstart.subset (by simp))

/-! ## Searches -/

/-- A text is found at the start. -/
theorem find_text_start {pattern s : JSString} (h : startsWith s pattern) :
    findText pattern s = some 0 := by
  cases s with
  | nil =>
      cases pattern with
      | nil => rfl
      | cons d word => cases h
  | cons c rest => rw [findText, if_pos h]

/-- A text is found later. -/
theorem find_text_cons {pattern s : JSString} {c : CodeUnit}
    (h : startsWith (c :: s) pattern = false) :
    findText pattern (c :: s) = (findText pattern s).map (· + 1) := by
  rw [findText, if_neg (by simp [h])]

/-! ## Content lines -/

/-- The trimmed lines that are not blank. -/
def contentLines (s : JSString) : List JSString :=
  ((splitLines s).map trim).filter fun line => !line.isEmpty

theorem content_lines_last (h : unit '\n' ∉ line) :
    contentLines line = [trim line].filter fun line => !line.isEmpty := by
  rw [contentLines, split_lines_last h, List.map_singleton]

theorem content_lines_next (h : unit '\n' ∉ line) :
    contentLines (line ++ unit '\n' :: rest) = contentLines line ++ contentLines rest := by
  rw [content_lines_last h, contentLines, split_lines_next h, List.map_cons, trim_drop_return,
    ← List.singleton_append, List.filter_append]
  rfl

@[simp] theorem content_lines_nil : contentLines [] = [] := rfl

/-- Whitespace in front of a text adds no content. -/
theorem content_lines_cons {c : CodeUnit} (h : isWhitespace c) (s : JSString) :
    contentLines (c :: s) = contentLines s := by
  by_cases hc : c = unit '\n'
  · subst hc
    exact content_lines_next List.not_mem_nil
  · have hfirst : ∀ line : JSString, unit '\n' ∉ line → unit '\n' ∉ c :: line := by
      intro line hline
      rw [List.mem_cons, not_or]
      exact ⟨fun heq => hc heq.symm, hline⟩
    induction s using lines_induction with
    | last line hline =>
        rw [content_lines_last (hfirst line hline), content_lines_last hline, trim_cons h]
    | next line rest hline _ =>
        rw [← List.cons_append, content_lines_next (hfirst line hline), content_lines_next hline,
          content_lines_last (hfirst line hline), content_lines_last hline, trim_cons h]

/-- Whitespace at the end of a text adds no content. -/
theorem content_lines_snoc {c : CodeUnit} (h : isWhitespace c) (s : JSString) :
    contentLines (s ++ [c]) = contentLines s := by
  induction s using lines_induction with
  | last line hline =>
      by_cases hc : c = unit '\n'
      · subst hc
        rw [content_lines_next hline, content_lines_nil, List.append_nil]
      · have hlong : unit '\n' ∉ line ++ [c] := by
          rw [List.mem_append, List.mem_singleton, not_or]
          exact ⟨hline, fun heq => hc heq.symm⟩
        rw [content_lines_last hlong, content_lines_last hline, trim_snoc h]
  | next line rest hline ih =>
      rw [List.append_assoc, List.cons_append, content_lines_next hline, ih,
        content_lines_next hline]

theorem content_lines_trim (s : JSString) : contentLines (trim s) = contentLines s :=
  trim_invariant (fun _ s h => content_lines_cons h s) (fun _ s h => content_lines_snoc h s) s

/-! ## What the loops read -/

/-- The loop over front matter reads its content lines. -/
theorem front_matter_content (s : JSString) (metadata : Properties JSString) :
    (splitLines s).foldl frontmatterLine metadata =
      (contentLines s).foldl frontmatterLine metadata := by
  unfold contentLines
  induction splitLines s generalizing metadata with
  | nil => rfl
  | cons line rest ih =>
      rw [List.foldl_cons, ih, List.map_cons]
      have htrim : frontmatterLine metadata line = frontmatterLine metadata (trim line) := by
        unfold frontmatterLine
        rw [trim_trim]
      by_cases hline : trim line = []
      · have hblank : frontmatterLine metadata line = metadata := by
          unfold frontmatterLine
          rw [hline]
          rfl
        rw [hblank, List.filter_cons_of_neg (by simp [hline])]
      · rw [List.filter_cons_of_pos (by simp [hline]), List.foldl_cons, htrim]

/-- The block of front matter, whose whitespace at the ends does not matter. -/
theorem front_matter_trim (block : JSString) :
    (splitLines (trim block)).foldl frontmatterLine [] =
      (contentLines block).foldl frontmatterLine [] := by
  rw [front_matter_content, content_lines_trim]

end AgentResolver
