import AgentResolver.JavaScript.AsciiLower
import AgentResolver.Name

/-!
# The grammar of Handshake names

Which inputs `normalizeHandshakeName` accepts. The labels are checked after the Unicode lower case
has been taken, so the accepted texts are those whose lower case is a name: the names of the DNS
grammar, and the texts that become one when every Kelvin sign is read as the letter `k`.
`normalize_ok_iff` is the function in one line, `lower_is_name_iff` its preimage under lower case,
and `follows_grammar_iff` says on which inputs the DNS grammar alone decides.
-/

namespace AgentResolver

open JavaScript

/-- An ASCII letter or digit, or a hyphen. -/
def isLdhUnit (c : CodeUnit) : Bool := isAsciiAlpha c || isAsciiDigit c || c == unit '-'

/-- A label: 1 to 63 letters, digits and hyphens, with no hyphen at either end. -/
structure IsDnsLabel (label : JSString) : Prop where
  length_pos : 1 ≤ label.length
  length_le : label.length ≤ 63
  units : ∀ c ∈ label, isLdhUnit c
  head : label.head? ≠ some (unit '-')
  last : label.getLast? ≠ some (unit '-')

/-- One or more labels separated by dots, with at most 253 units in all. -/
structure IsDnsName (name : JSString) : Prop where
  labels : ∃ labels, labels ≠ [] ∧ name = join labels [unit '.'] ∧
    ∀ label ∈ labels, IsDnsLabel label
  length_le : name.length ≤ 253

/-- The input without surrounding whitespace and then without one dot at its end. -/
def nameText (input : JSString) : JSString :=
  if (trim input).getLast? = some (unit '.') then (trim input).dropLast else trim input

/-! ## Labels -/

/-- A label matches a pattern exactly when its length is in range and its first, inner and last
units are in the three classes. -/
theorem label_pattern_iff {first inner last : CodeUnit → Bool} {c : CodeUnit} {rest : JSString} :
    labelPattern first inner last (c :: rest) ↔
      first c ∧ (rest ≠ [] → rest.length ≤ 62 ∧ (∀ d ∈ rest.dropLast, inner d) ∧
        rest.getLast?.any last) := by
  simp only [labelPattern, Bool.and_eq_true, Bool.or_eq_true, List.isEmpty_iff, decide_eq_true_eq,
    List.all_eq_true]
  refine and_congr_right fun _ => ?_
  by_cases hrest : rest = []
  · simp [hrest]
  · simp [hrest, and_assoc]

/-- The lower case of a unit is a lower-case letter or digit exactly when it is one in any case. -/
theorem lower_alnum_iff (c : CodeUnit) :
    isLowerAlnum (asciiLower c) ↔ isAsciiAlpha c ∨ isAsciiDigit c := by
  simp only [isLowerAlnum, isAsciiAlpha, isAsciiDigit, Bool.or_eq_true, Bool.and_eq_true,
    decide_eq_true_eq, UInt16.le_iff_toNat_le]
  unfold asciiLower
  split
  · rename_i hupper
    have hlow : 0x41 ≤ c.toNat := hupper.1
    have hhigh : c.toNat ≤ 0x5A := hupper.2
    rw [UInt16.toNat_add]
    simp only [UInt16.reduceToNat]
    omega
  · rename_i hupper
    have hnot : ¬ (0x41 ≤ c.toNat ∧ c.toNat ≤ 0x5A) := hupper
    simp only [UInt16.reduceToNat]
    omega

/-- Only the unit itself has a hyphen or a dot as its lower case. -/
theorem lower_eq_iff {c d : CodeUnit} (hd : d.toNat < 0x30) : asciiLower c = d ↔ c = d := by
  unfold asciiLower
  split
  · rename_i hupper
    have hlow : 0x41 ≤ c.toNat := hupper.1
    have hhigh : c.toNat ≤ 0x5A := hupper.2
    rw [← UInt16.toNat_inj, ← UInt16.toNat_inj, UInt16.toNat_add]
    simp only [UInt16.reduceToNat]
    omega
  · rfl

theorem ldh_unit_iff (c : CodeUnit) :
    isLdhUnit c ↔ isLowerAlnum (asciiLower c) ∨ c = unit '-' := by
  rw [lower_alnum_iff]
  simp [isLdhUnit]

/-- A unit of the grammar that is not a hyphen is a letter or digit. -/
theorem alnum_of_ldh {c : CodeUnit} (h : isLdhUnit c) (hne : c ≠ unit '-') :
    isLowerAlnum (asciiLower c) :=
  ((ldh_unit_iff c).mp h).resolve_right hne

theorem alnum_ne_hyphen {c : CodeUnit} (h : isLowerAlnum (asciiLower c)) : c ≠ unit '-' := by
  rintro rfl
  exact absurd h (by decide)

/-- The label pattern on the lower case of a label is the DNS grammar of labels. -/
theorem handshake_label_lower (label : JSString) :
    handshakeLabelRe (label.map asciiLower) ↔ IsDnsLabel label := by
  cases label with
  | nil =>
      constructor
      · intro h
        cases h
      · intro h
        exact absurd h.length_pos (by decide)
  | cons c rest =>
      have hinner (d : CodeUnit) :
          (isLowerAlnum (asciiLower d) || asciiLower d == unit '-') ↔ isLdhUnit d := by
        rw [ldh_unit_iff, Bool.or_eq_true, beq_iff_eq, lower_eq_iff (by decide)]
      rw [List.map_cons, handshakeLabelRe, label_pattern_iff, ne_eq, List.map_eq_nil_iff,
        List.length_map, ← List.map_dropLast, List.forall_mem_map, List.getLast?_map,
        Option.any_map]
      simp only [hinner]
      constructor
      · rintro ⟨hfirst, hrest⟩
        by_cases hnil : rest = []
        · subst hnil
          exact ⟨by simp, by simp, by simpa [ldh_unit_iff] using Or.inl hfirst,
            by simpa using alnum_ne_hyphen hfirst, by simpa using alnum_ne_hyphen hfirst⟩
        · obtain ⟨hlength, hmiddle, hlast⟩ := hrest hnil
          rw [List.getLast?_eq_some_getLast hnil, Option.any_some] at hlast
          refine ⟨by simp, by simp only [List.length_cons]; omega, fun d hd => ?_,
            by simpa using alnum_ne_hyphen hfirst, ?_⟩
          · rcases List.mem_cons.mp hd with rfl | hd
            · exact (ldh_unit_iff d).mpr (Or.inl hfirst)
            · rw [← List.dropLast_append_getLast hnil] at hd
              rcases List.mem_append.mp hd with hd | hd
              · exact hmiddle d hd
              · rw [List.mem_singleton.mp hd]
                exact (ldh_unit_iff _).mpr (Or.inl hlast)
          · rw [List.getLast?_cons, List.getLast?_eq_some_getLast hnil]
            simpa using alnum_ne_hyphen hlast
      · rintro ⟨_, hlength, hunits, hhead, hlast⟩
        refine ⟨alnum_of_ldh (hunits c List.mem_cons_self) (by simpa using hhead), fun hnil => ?_⟩
        rw [List.getLast?_cons, List.getLast?_eq_some_getLast hnil] at hlast
        simp only [List.length_cons] at hlength
        refine ⟨by omega, fun d hd => hunits d ?_, ?_⟩
        · exact List.mem_cons_of_mem _ (List.dropLast_sublist _ |>.subset hd)
        · rw [List.getLast?_eq_some_getLast hnil, Option.any_some]
          exact alnum_of_ldh (hunits _ (List.mem_cons_of_mem _ (List.getLast_mem hnil)))
            (by simpa using hlast)

/-! ## Names -/

/-- Splitting commutes with a map that keeps the separator apart. -/
theorem split_map {f : CodeUnit → CodeUnit} {separator : CodeUnit}
    (hf : ∀ c, f c = separator ↔ c = separator) (s : JSString) :
    split (s.map f) separator = (split s separator).map (List.map f) := by
  induction s with
  | nil => rfl
  | cons c rest ih =>
      unfold split at ih ⊢
      rw [List.map_cons, List.splitOn_cons_eq_if_modifyHead, List.splitOn_cons_eq_if_modifyHead, ih]
      by_cases hc : c = separator
      · simp [hc, (hf separator).mpr rfl]
      · have hfc : f c ≠ separator := fun h => hc ((hf c).mp h)
        simp only [beq_iff_eq, hc, hfc, if_false]
        cases List.splitOn separator rest <;> rfl

theorem IsDnsLabel.no_dot {label : JSString} (h : IsDnsLabel label) : unit '.' ∉ label :=
  fun hdot => absurd (h.units _ hdot) (by decide)

/-- The labels of a name are what it is split into. -/
theorem dns_name_iff {name : JSString} :
    IsDnsName name ↔ name.length ≤ 253 ∧ ∀ label ∈ split name (unit '.'), IsDnsLabel label := by
  constructor
  · rintro ⟨⟨labels, hne, rfl, hlabels⟩, hlength⟩
    refine ⟨hlength, ?_⟩
    rw [split, join, List.splitOn_intercalate _ (fun label h => (hlabels label h).no_dot) hne]
    exact hlabels
  · rintro ⟨hlength, hlabels⟩
    exact ⟨⟨split name (unit '.'), List.splitOn_ne_nil _ _, (List.intercalate_splitOn _).symm,
      hlabels⟩, hlength⟩

/-- The units of a DNS name are ASCII. -/
theorem IsDnsName.ascii {name : JSString} (h : IsDnsName name) : ∀ c ∈ name, IsAscii c := by
  intro c hc
  by_cases hdot : c = unit '.'
  · rw [hdot]
    decide
  · obtain ⟨label, hlabel, hmem⟩ := exists_piece_of_mem hc hdot
    have hunit := ((dns_name_iff.mp h).2 label hlabel).units c hmem
    rw [isLdhUnit, isAsciiAlpha, isAsciiDigit] at hunit
    simp only [Bool.or_eq_true, Bool.and_eq_true, decide_eq_true_eq, beq_iff_eq,
      UInt16.le_iff_toNat_le, ← UInt16.toNat_inj] at hunit
    rw [IsAscii, UInt16.lt_iff_toNat_lt]
    have hhyphen : (unit '-').toNat = 0x2D := rfl
    simp only [UInt16.reduceToNat] at hunit ⊢
    omega

/-- The ASCII lower case of a text is a name in normal form exactly when the text is a DNS name. -/
theorem ascii_lower_is_name (name : JSString) :
    IsHandshakeName (name.map asciiLower) ↔ IsDnsName name := by
  have hsplit := split_map (fun c => @lower_eq_iff c (unit '.') (by decide)) name
  rw [dns_name_iff]
  constructor
  · rintro ⟨hlength, hlabels⟩
    rw [hsplit, List.forall_mem_map] at hlabels
    exact ⟨by simpa using hlength,
      fun label h => (handshake_label_lower label).mp (hlabels label h)⟩
  · rintro ⟨hlength, hlabels⟩
    refine ⟨by simpa using hlength, ?_⟩
    rw [hsplit, List.forall_mem_map]
    exact fun label h => (handshake_label_lower label).mpr (hlabels label h)

/-- The texts whose lower case is a name in normal form. -/
theorem lower_is_name_iff (name : JSString) :
    IsHandshakeName (toLowerCase name) ↔ IsDnsName (name.map kelvinAsK) := by
  have hmap (h : ∀ c ∈ name, LowersToAscii c) :
      toLowerCase name = (name.map kelvinAsK).map asciiLower := by
    rw [to_lower_case_units h, List.map_map]
    rfl
  constructor
  · intro h
    have hunits := to_lower_case_ascii_iff.mp fun c hc => (h.units hc).isAscii
    rwa [hmap hunits, ascii_lower_is_name] at h
  · intro h
    have hunits : ∀ c ∈ name, LowersToAscii c := by
      intro c hc
      have hascii := h.ascii _ (List.mem_map_of_mem hc)
      by_cases hkelvin : c = kelvinSign
      · exact Or.inr hkelvin
      · rw [kelvinAsK, if_neg hkelvin] at hascii
        exact Or.inl hascii
    rw [hmap hunits, ascii_lower_is_name]
    exact h

/-- What `normalizeHandshakeName` returns is the lower case of the text, and it returns exactly
when that is a name in normal form. -/
theorem normalize_ok_iff {input name : JSString} :
    normalizeHandshakeName input = .ok name ↔
      name = toLowerCase (nameText input) ∧ IsHandshakeName (toLowerCase (nameText input)) := by
  have htext : (if (trim input).getLast? = some (unit '.') then (trim input).dropLast
      else trim input) = nameText input := rfl
  constructor
  · intro h
    have hname := normalize_valid h
    have heq : name = toLowerCase (nameText input) := by
      simp only [normalizeHandshakeName, htext] at h
      generalize nameText input = undotted at h
      split at h
      · cases h
      · split at h
        · cases h
        · split at h
          · cases h
          · cases hcheck : checkLabels handshakeLabelRe (text "label is too long: ")
                (text "label is not a valid DNS label: ")
                (split (toLowerCase undotted) (unit '.')) with
            | error error => rw [hcheck] at h; cases h
            | ok => rw [hcheck] at h; cases h; rfl
    exact ⟨heq, heq ▸ hname⟩
  · rintro ⟨rfl, hname⟩
    have hne : trim input ≠ [] := by
      intro hnil
      rw [nameText, hnil] at hname
      exact hname.ne_nil rfl
    have hempty : (split (toLowerCase (nameText input)) (unit '.')).any List.isEmpty = false := by
      rw [List.any_eq_false]
      intro label hlabel
      simpa using (handshake_label_spec (hname.labels label hlabel)).1
    have hcheck (tooLong invalid : JSString) : checkLabels handshakeLabelRe tooLong invalid
        (split (toLowerCase (nameText input)) (unit '.')) = .ok () :=
      check_labels_ok.mpr fun label hlabel =>
        ⟨(handshake_label_spec (hname.labels label hlabel)).2.1, hname.labels label hlabel⟩
    have hlength : ¬ (toLowerCase (nameText input)).length > 253 := Nat.not_lt.mpr hname.length_le
    simp only [normalizeHandshakeName, htext, List.isEmpty_iff, hne, if_false, hempty, hlength,
      hcheck, Bool.false_eq_true]
    rfl

/-! ## The inputs on which the grammar decides -/

/-- The input is accepted exactly when its text is a DNS name; what is returned is the text with A
to Z in lower case; and normalising that again changes nothing. -/
structure FollowsGrammar (input : JSString) : Prop where
  accepts : (∃ name, normalizeHandshakeName input = .ok name) ↔ IsDnsName (nameText input)
  returns : ∀ name, normalizeHandshakeName input = .ok name →
    name = (nameText input).map asciiLower
  idempotent : ∀ name, normalizeHandshakeName input = .ok name →
    normalizeHandshakeName name = .ok name

/-- The accepted inputs. -/
theorem accepts_iff {input : JSString} :
    (∃ name, normalizeHandshakeName input = .ok name) ↔
      IsDnsName ((nameText input).map kelvinAsK) := by
  simp only [normalize_ok_iff, exists_eq_left, lower_is_name_iff]

/-- A text without Kelvin signs is not changed by reading them as `k`. -/
theorem map_kelvin {s : JSString} (h : kelvinSign ∉ s) : s.map kelvinAsK = s := by
  have hunit : ∀ c ∈ s, kelvinAsK c = c := by
    intro c hc
    have hne : c ≠ kelvinSign := by
      rintro rfl
      exact h hc
    exact if_neg hne
  rw [List.map_congr_left hunit, List.map_id']

/-- The DNS grammar decides, except on texts that hold a Kelvin sign and are names once it is read
as the letter `k`: those are accepted. -/
theorem follows_grammar_iff (input : JSString) :
    FollowsGrammar input ↔
      ¬ (kelvinSign ∈ nameText input ∧ IsDnsName ((nameText input).map kelvinAsK)) := by
  constructor
  · rintro h ⟨hkelvin, hname⟩
    have hascii := (h.accepts.mp (accepts_iff.mpr hname)).ascii _ hkelvin
    exact absurd hascii (by decide)
  · intro h
    have haccepts : (∃ name, normalizeHandshakeName input = .ok name) ↔
        IsDnsName (nameText input) := by
      by_cases hkelvin : kelvinSign ∈ nameText input
      · refine ⟨fun hok => absurd ⟨hkelvin, accepts_iff.mp hok⟩ h, fun hname => ?_⟩
        exact absurd (hname.ascii _ hkelvin) (by decide)
      · rw [accepts_iff, map_kelvin hkelvin]
    refine ⟨haccepts, fun name hname => ?_, fun name hname => normalize_idempotent hname⟩
    have hdns := haccepts.mp ⟨name, hname⟩
    rw [(normalize_ok_iff.mp hname).1, to_lower_case_ascii hdns.ascii]

/-- The Kelvin sign alone is accepted, as the name `k`. -/
theorem kelvin_accepted : ¬ FollowsGrammar [kelvinSign] := by
  intro h
  have hok : normalizeHandshakeName [kelvinSign] = .ok (text "k") := by decide +kernel
  have hascii := (h.accepts.mp ⟨_, hok⟩).ascii kelvinSign (by decide)
  exact absurd hascii (by decide)

end AgentResolver
