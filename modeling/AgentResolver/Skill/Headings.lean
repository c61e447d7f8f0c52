import AgentResolver.Sequence.Search
import AgentResolver.Skill.Lines

/-!
# Heading metadata and indentation

A SKILL.md without front matter is described by its first heading and its first line of text. Both
are looked for in the trimmed lines, but the marker `# ` is taken off the line itself, so it stays
in the name when the heading is indented. `heading_metadata_indent_iff` says when indentation
makes no difference.
-/

namespace AgentResolver

open JavaScript
open Sequence

/-- Spaces and tabs. -/
def IsIndent (space : JSString) : Prop := ∀ c ∈ space, c = unit ' ' ∨ c = unit '\t'

instance (space : JSString) : Decidable (IsIndent space) :=
  inferInstanceAs (Decidable (∀ c ∈ space, c = unit ' ' ∨ c = unit '\t'))

/-- A text with spaces and tabs inserted at the start of its lines. -/
inductive Indents : JSString → JSString → Prop where
  | last {line space : JSString} : unit '\n' ∉ line → IsIndent space →
      Indents line (space ++ line)
  | next {line rest space indented : JSString} : unit '\n' ∉ line → IsIndent space →
      Indents rest indented →
        Indents (line ++ unit '\n' :: rest) (space ++ line ++ unit '\n' :: indented)

/-- A line with spaces and tabs in front. -/
def IndentsLine (line indented : JSString) : Prop :=
  ∃ space, IsIndent space ∧ indented = space ++ line

/-- The metadata that a heading and a text describe, from the trimmed lines alone. -/
def headingReference (content : JSString) : Properties JSString :=
  let lines := (splitLines content).map trim
  let heading := lines.find? fun line => startsWith line (text "# ")
  let description := lines.find? fun line => !line.isEmpty && !startsWith line [unit '#']
  (heading.map fun line => (text "name", trim (line.drop (text "# ").length))).toList ++
    (description.map fun line => (text "description", line)).toList

/-! ## Indented lines -/

theorem whitespace_of_indent {space : JSString} (h : IsIndent space) :
    ∀ c ∈ space, isWhitespace c := by
  intro c hc
  rcases h c hc with rfl | rfl
  · decide
  · decide

theorem no_line_feed_of_indent {line space : JSString} (h : IsIndent space)
    (hline : unit '\n' ∉ line) : unit '\n' ∉ space ++ line := by
  rw [List.mem_append, not_or]
  refine ⟨fun hmem => ?_, hline⟩
  rcases h _ hmem with heq | heq
  · exact absurd heq (by decide)
  · exact absurd heq (by decide)

theorem IndentsLine.trim_eq {line indented : JSString} (h : IndentsLine line indented) :
    trim indented = trim line := by
  obtain ⟨space, hspace, rfl⟩ := h
  exact trim_append (whitespace_of_indent hspace) line

/-- The carriage return of a line is dropped after its indentation. -/
theorem drop_return_indent {line space : JSString} (h : IsIndent space) :
    dropReturn (space ++ line) = space ++ dropReturn line := by
  unfold dropReturn
  cases line using List.reverseRecOn with
  | nil =>
      have hlast : space.getLast? ≠ some (unit '\r') := by
        intro hlast
        rcases h _ (List.mem_of_getLast? hlast) with heq | heq
        · exact absurd heq (by decide)
        · exact absurd heq (by decide)
      rw [List.append_nil, if_neg hlast]
      simp
  | append_singleton start c =>
      rw [← List.append_assoc, List.getLast?_concat, List.getLast?_concat, List.dropLast_concat,
        List.dropLast_concat]
      split
      · rfl
      · rw [List.append_assoc]

/-- The lines of an indented text are the indented lines. -/
theorem indents_lines {content indented : JSString} (h : Indents content indented) :
    List.Forall₂ IndentsLine (splitLines content) (splitLines indented) := by
  induction h with
  | last hline hspace =>
      rw [split_lines_last hline, split_lines_last (no_line_feed_of_indent hspace hline)]
      exact .cons ⟨_, hspace, rfl⟩ .nil
  | next hline hspace _ ih =>
      rw [split_lines_next hline, split_lines_next (no_line_feed_of_indent hspace hline),
        drop_return_indent hspace]
      exact .cons ⟨_, hspace, rfl⟩ ih

/-- Indentation does not change the trimmed lines. -/
theorem indents_trimmed {content indented : JSString} (h : Indents content indented) :
    (splitLines indented).map trim = (splitLines content).map trim := by
  have hlines := indents_lines h
  generalize splitLines content = lines, splitLines indented = indentedLines at hlines ⊢
  induction hlines with
  | nil => rfl
  | cons hline _ ih => rw [List.map_cons, List.map_cons, hline.trim_eq, ih]

/-- Indentation makes no front matter opener. -/
theorem opener_of_indents {content indented word : JSString} {c : CodeUnit}
    (h : Indents content indented) (hword : unit '\n' ∉ c :: word)
    (hc : c ≠ unit ' ' ∧ c ≠ unit '\t')
    (hopener : startsWith indented (c :: word ++ [unit '\n'])) :
    startsWith content (c :: word ++ [unit '\n']) := by
  cases h with
  | last hline hspace =>
      rw [not_starts_with_last (no_line_feed_of_indent hspace hline)] at hopener
      cases hopener
  | @next line rest space indented hline hspace _ =>
      rw [starts_with_next hword (no_line_feed_of_indent hspace hline)] at hopener
      rw [starts_with_next hword hline]
      cases space with
      | nil => exact hopener
      | cons d space =>
          obtain ⟨rfl, -⟩ := List.cons.inj hopener
          rcases hspace d List.mem_cons_self with rfl | rfl
          · exact absurd rfl hc.1
          · exact absurd rfl hc.2

/-! ## The name of a heading -/

/-- The lines that `parseHeadingMetadata` takes for headings. -/
def isHeading (line : JSString) : Bool := startsWith (trim line) (text "# ")

variable {line : JSString}

theorem heading_trimmed (h : isHeading line) :
    ∃ name, trim line = unit '#' :: unit ' ' :: name := by
  rw [isHeading, startsWith, List.isPrefixOf_iff_prefix] at h
  obtain ⟨name, hname⟩ := h
  exact ⟨name, hname.symm⟩

/-- The marker of a heading at the start of its line is removed. -/
theorem strip_marker_of_start (h : isHeading line) (hstart : line.head? = some (unit '#')) :
    trim (stripHeadingMarker line) = trim ((trim line).drop (text "# ").length) := by
  obtain ⟨name, hname⟩ := heading_trimmed h
  have hdrop : line.dropWhile isWhitespace = line := by
    cases line with
    | nil => rfl
    | cons c rest =>
        obtain rfl := Option.some.inj hstart
        exact List.dropWhile_cons_of_neg (by decide)
  -- The line is the trimmed one and whitespace.
  obtain ⟨space, hspace, hline⟩ : ∃ space : JSString, (∀ c ∈ space, isWhitespace c) ∧
      line = unit '#' :: unit ' ' :: (name ++ space) := by
    refine ⟨line.rtakeWhile isWhitespace, fun c hc => List.mem_rtakeWhile_imp hc, ?_⟩
    have hsplit := @List.rdropWhile_append_rtakeWhile _ isWhitespace line
    have htrim : line.rdropWhile isWhitespace = trim line := by rw [trim, hdrop]
    rw [htrim, hname] at hsplit
    exact hsplit.symm
  have hstrip : stripHeadingMarker line = (unit ' ' :: (name ++ space)).dropWhile isWhitespace := by
    rw [hline, stripHeadingMarker, if_pos ⟨rfl, rfl⟩]
  have hreference : (trim line).drop (text "# ").length = name := by
    rw [hname]
    rfl
  rw [hstrip, hreference, trim_drop_while, trim_cons (by decide), trim_append_end hspace]

/-- The marker of a heading that does not start its line is kept. -/
theorem strip_marker_of_indented (hstart : line.head? ≠ some (unit '#')) :
    stripHeadingMarker line = line := by
  cases line with
  | nil => rfl
  | cons c rest =>
      rw [stripHeadingMarker, if_neg]
      rintro ⟨rfl, -⟩
      exact hstart rfl

/-- A name without its marker is not the line with it. -/
theorem name_ne_heading (h : isHeading line) :
    trim line ≠ trim ((trim line).drop (text "# ").length) := by
  obtain ⟨name, hname⟩ := heading_trimmed h
  intro heq
  have hshort := length_trim_le ((trim line).drop (text "# ").length)
  rw [← heq, hname] at hshort
  simp only [List.length_drop, List.length_cons] at hshort
  have hmarker : (text "# ").length = 2 := rfl
  omega

/-- The name of a heading is the reference's exactly when the heading starts its line. -/
theorem heading_name_iff (h : isHeading line) :
    trim (stripHeadingMarker line) = trim ((trim line).drop (text "# ").length) ↔
      line.head? = some (unit '#') := by
  constructor
  · intro heq
    by_contra hstart
    rw [strip_marker_of_indented hstart] at heq
    exact name_ne_heading h heq
  · exact strip_marker_of_start h

/-! ## Heading metadata -/

/-- The heading line of a text: the first line whose trimmed form starts with the marker. -/
def headingLine (content : JSString) : Option JSString := (splitLines content).find? isHeading

/-- The metadata of a heading, if there is one, and the description. -/
def headingProperties (name : Option JSString) (content : JSString) : Properties JSString :=
  (name.map fun name => (text "name", name)).toList ++
    ((((splitLines content).map trim).find? fun line =>
      !line.isEmpty && !startsWith line [unit '#']).map fun line =>
        (text "description", line)).toList

theorem parse_heading_metadata_eq (content : JSString) :
    parseHeadingMetadata content =
      headingProperties ((headingLine content).map fun line => trim (stripHeadingMarker line))
        content := by
  rw [headingProperties, Option.map_map]
  rfl

theorem heading_reference_eq (content : JSString) :
    headingReference content =
      headingProperties ((headingLine content).map fun line =>
        trim ((trim line).drop (text "# ").length)) content := by
  rw [headingProperties, Option.map_map, headingReference, List.find?_map, Option.map_map]
  rfl

/-- Texts with the same trimmed lines have the same reference. -/
theorem heading_properties_inj {name other : Option JSString} {content : JSString} :
    headingProperties name content = headingProperties other content ↔ name = other := by
  rw [headingProperties, headingProperties, List.append_left_inj]
  cases name <;> cases other <;> simp

/-- A text without front matter is described by its headings. -/
theorem parse_without_opener {content : JSString}
    (hlf : startsWith content (text "---\n") = false)
    (hcrlf : startsWith content (text "---\r\n") = false) :
    parseSkillMd content = ⟨parseHeadingMetadata content, []⟩ := by
  rw [parseSkillMd, parseFrontmatter, hlf, hcrlf]
  rfl

/-- The heading of an indented text is the indented heading. -/
theorem indents_heading {content indented : JSString} (h : Indents content indented) :
    (headingLine content = none ∧ headingLine indented = none) ∨
      ∃ line space, headingLine content = some line ∧ IsIndent space ∧
        headingLine indented = some (space ++ line) := by
  have hagree : ∀ line indentedLine, IndentsLine line indentedLine →
      isHeading line = isHeading indentedLine := by
    intro line indentedLine hline
    rw [isHeading, isHeading, hline.trim_eq]
  rcases find_related (indents_lines h) hagree with
    hnone | ⟨line, indentedLine, hfind, hfind', hrel⟩
  · exact Or.inl hnone
  · obtain ⟨space, hspace, rfl⟩ := hrel
    exact Or.inr ⟨line, space, hfind, hspace, hfind'⟩

/-- A heading that starts its line is not indented, before and after the indentation. -/
theorem start_of_indented {line space : JSString} (hspace : IsIndent space)
    (h : (space ++ line).head? = some (unit '#')) : line.head? = some (unit '#') := by
  cases space with
  | nil => exact h
  | cons c space =>
      obtain rfl := Option.some.inj h
      rcases hspace _ List.mem_cons_self with heq | heq
      · exact absurd heq (by decide)
      · exact absurd heq (by decide)

/-- Indentation leaves the metadata alone, and it is what heading and text describe, exactly when
the heading of the indented text starts its line. -/
theorem heading_metadata_indent_iff {content indented : JSString} (h : Indents content indented)
    (hlf : startsWith content (text "---\n") = false)
    (hcrlf : startsWith content (text "---\r\n") = false) :
    ((parseSkillMd indented).metadata = (parseSkillMd content).metadata ∧
      (parseSkillMd content).metadata = headingReference content) ↔
        ∀ line, headingLine indented = some line → line.head? = some (unit '#') := by
  have hlf' : startsWith indented (text "---\n") = false := by
    rw [Bool.eq_false_iff]
    intro hopener
    have hcontent := @opener_of_indents content indented [unit '-', unit '-'] (unit '-') h
      (by decide) (by decide) hopener
    exact absurd (hcontent.symm.trans hlf) (by decide)
  have hcrlf' : startsWith indented (text "---\r\n") = false := by
    rw [Bool.eq_false_iff]
    intro hopener
    have hcontent := @opener_of_indents content indented [unit '-', unit '-', unit '\r']
      (unit '-') h (by decide) (by decide) hopener
    exact absurd (hcontent.symm.trans hcrlf) (by decide)
  have hproperties : ∀ name, headingProperties name indented = headingProperties name content := by
    intro name
    rw [headingProperties, headingProperties, indents_trimmed h]
  rw [parse_without_opener hlf hcrlf, parse_without_opener hlf' hcrlf']
  show (parseHeadingMetadata indented = parseHeadingMetadata content ∧
    parseHeadingMetadata content = headingReference content) ↔ _
  rw [parse_heading_metadata_eq, parse_heading_metadata_eq, heading_reference_eq, hproperties,
    heading_properties_inj, heading_properties_inj]
  rcases indents_heading h with ⟨hnone, hnone'⟩ | ⟨line, space, hline, hspace, hline'⟩
  · rw [hnone, hnone']
    simp
  · have hheading : isHeading line := List.find?_some hline
    have hheading' : isHeading (space ++ line) := List.find?_some hline'
    have hreference : trim ((trim (space ++ line)).drop (text "# ").length) =
        trim ((trim line).drop (text "# ").length) := by
      rw [trim_append (whitespace_of_indent hspace)]
    rw [hline, hline']
    simp only [Option.map_some, Option.some.injEq]
    constructor
    · rintro ⟨hsame, hname⟩ indentedLine rfl
      exact (heading_name_iff hheading').mp (by rw [hsame, hname, hreference])
    · intro hstart
      have hstart' := hstart _ rfl
      have hname := (heading_name_iff hheading).mpr (start_of_indented hspace hstart')
      exact ⟨by rw [(heading_name_iff hheading').mpr hstart', hname, hreference], hname⟩

/-- A text line under a heading, indented by a tab. -/
theorem heading_metadata_indent_iff_example :
    (parseSkillMd (text "# Agent\n\tText")).metadata = headingReference (text "# Agent\nText") := by
  have hindents : Indents (text "# Agent\nText") (text "# Agent\n\tText") := by
    have htext : Indents (text "Text") (text "\tText") :=
      @Indents.last (text "Text") (text "\t") (by decide) (by decide)
    exact @Indents.next (text "# Agent") _ [] _ (by decide) (by decide) htext
  have h := (heading_metadata_indent_iff hindents (by decide) (by decide)).mpr ?_
  · exact h.1.trans h.2
  · intro line hline
    obtain rfl := Option.some.inj hline
    rfl

/-- An indented heading keeps its marker in the name. -/
theorem indented_heading_keeps_marker :
    Indents (text "# Agent") (text "  # Agent") ∧
      (parseSkillMd (text "# Agent")).metadata = [(text "name", text "Agent")] ∧
      (parseSkillMd (text "  # Agent")).metadata = [(text "name", text "# Agent")] :=
  ⟨@Indents.last (text "# Agent") (text "  ") (by decide) (by decide), by decide, by decide⟩

end AgentResolver
