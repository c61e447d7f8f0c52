import AgentResolver.JavaScript.CaseMapping
import AgentResolver.JavaScript.Values

/-!
# Handshake names and lookup names

`normalizeHandshakeName` and `buildLookupNames` of `src/name.js`. The main facts are
`normalize_idempotent`, that a normalised name is its own normal form, and
`build_lookup_names_spec`, that the apex is the only entry whose query name is the name itself.
-/

namespace AgentResolver

open JavaScript

/-- The regular expressions `^F(?:I{0,61}L)?$` of the two label grammars, for the character
classes `F`, `I` and `L`. -/
def labelPattern (first inner last : CodeUnit → Bool) : JSString → Bool
  | [] => false
  | c :: rest =>
      first c && (rest.isEmpty ||
        (rest.length ≤ 62 && rest.dropLast.all inner && rest.getLast?.any last))

def isLowerAlnum (c : CodeUnit) : Bool := (0x61 ≤ c && c ≤ 0x7A) || isAsciiDigit c

/-- `/^[a-z0-9](?:[a-z0-9-]{0,61}[a-z0-9])?$/`. -/
def handshakeLabelRe : JSString → Bool :=
  labelPattern isLowerAlnum (fun c => isLowerAlnum c || c == unit '-') isLowerAlnum

/-- `/^[a-z0-9_](?:[a-z0-9_-]{0,61}[a-z0-9])?$/`. -/
def lookupLabelRe : JSString → Bool :=
  labelPattern (fun c => isLowerAlnum c || c == unit '_')
    (fun c => isLowerAlnum c || c == unit '_' || c == unit '-') isLowerAlnum

/-- The loop over the labels, with the grammar and the two messages of the caller. -/
def checkLabels (pattern : JSString → Bool) (tooLong invalid : JSString) :
    List JSString → Except JSError Unit
  | [] => .ok ()
  | label :: rest =>
      if label.length > 63 then .error ⟨tooLong ++ label⟩
      else if !pattern label then .error ⟨invalid ++ label⟩
      else checkLabels pattern tooLong invalid rest

/-- `normalizeHandshakeName` on a string input. -/
def normalizeHandshakeName (input : JSString) : Except JSError JSString :=
  let trimmed := trim input
  if trimmed.isEmpty then .error ⟨text "name is required"⟩
  else
    let undotted := if trimmed.getLast? = some (unit '.') then trimmed.dropLast else trimmed
    let name := toLowerCase undotted
    let labels := split name (unit '.')
    if labels.any List.isEmpty then .error ⟨text "name contains an empty label"⟩
    else if name.length > 253 then .error ⟨text "name is too long"⟩
    else do
      checkLabels handshakeLabelRe (text "label is too long: ")
        (text "label is not a valid DNS label: ") labels
      return name

def validateLookupName (name : JSString) : Except JSError Unit :=
  if name.length > 253 then .error ⟨text "lookup name is too long"⟩
  else
    let labels := split name (unit '.')
    if labels.any List.isEmpty then .error ⟨text "lookup name contains an empty label"⟩
    else
      checkLabels lookupLabelRe (text "lookup label is too long: ")
        (text "lookup label is not valid: ") labels

/-- An element of the `locations` array. -/
inductive LookupLocation where
  | string (value : JSString)
  | nonString
  deriving DecidableEq

def defaultLookupLocations : List LookupLocation :=
  [.string (text "@"), .string (text "_agent"), .string (text "_agent-identity")]

/-- An entry of the result of `buildLookupNames`. -/
structure Lookup where
  location : JSString
  queryName : JSString
  deriving DecidableEq

/-- The trimmed, lower-cased location, or the error of the first check of the loop. -/
def locationText : LookupLocation → Except JSError JSString
  | .string value =>
      if (trim value).isEmpty then .error ⟨text "lookup locations must be non-empty strings"⟩
      else .ok (toLowerCase (trim value))
  | .nonString => .error ⟨text "lookup locations must be non-empty strings"⟩

/-- The query name of a location under a name. -/
def queryNameOf (name location : JSString) : JSString :=
  if location = text "@" then name else location ++ unit '.' :: name

/-- The loop of `buildLookupNames`, with the query names seen so far. -/
def collectLookupNames (name : JSString) (seen : List JSString) :
    List LookupLocation → Except JSError (List Lookup)
  | [] => .ok []
  | location :: rest => do
      let trimmed ← locationText location
      let queryName := queryNameOf name trimmed
      validateLookupName queryName
      if queryName ∈ seen then collectLookupNames name seen rest
      else
        let lookupNames ← collectLookupNames name (queryName :: seen) rest
        return ⟨trimmed, queryName⟩ :: lookupNames

def buildLookupNames (input : JSString) (locations : Option (List LookupLocation)) :
    Except JSError (List Lookup) := do
  let name ← normalizeHandshakeName input
  collectLookupNames name [] (locations.getD defaultLookupLocations)

/-! ## Names in normal form -/

/-- The units of names: `a-z`, `0-9`, `-` and the separating dots. -/
def IsNameUnit (c : CodeUnit) : Prop := isLowerAlnum c ∨ c = unit '-' ∨ c = unit '.'

/-- A name in normal form. -/
structure IsHandshakeName (name : JSString) : Prop where
  length_le : name.length ≤ 253
  labels : ∀ label ∈ split name (unit '.'), handshakeLabelRe label

theorem lower_alnum_bounds {c : CodeUnit} (h : isLowerAlnum c) :
    (0x61 ≤ c.toNat ∧ c.toNat ≤ 0x7A) ∨ (0x30 ≤ c.toNat ∧ c.toNat ≤ 0x39) := by
  simpa [isLowerAlnum, isAsciiDigit, UInt16.le_iff_toNat_le] using h

theorem IsNameUnit.bounds {c : CodeUnit} (h : IsNameUnit c) :
    0x2D ≤ c.toNat ∧ c.toNat ≤ 0x7A ∧ ¬ (0x3A ≤ c.toNat ∧ c.toNat ≤ 0x60) := by
  rcases h with h | rfl | rfl
  · have := lower_alnum_bounds h
    omega
  · decide
  · decide

theorem IsNameUnit.isAscii {c : CodeUnit} (h : IsNameUnit c) : IsAscii c := by
  have := h.bounds
  exact UInt16.lt_iff_toNat_lt.mpr (by simp only [UInt16.reduceToNat]; omega)

theorem IsNameUnit.asciiLower {c : CodeUnit} (h : IsNameUnit c) : asciiLower c = c := by
  have := h.bounds
  refine if_neg fun hupper => ?_
  simp only [UInt16.le_iff_toNat_le, UInt16.reduceToNat] at hupper
  omega

theorem IsNameUnit.not_whitespace {c : CodeUnit} (h : IsNameUnit c) : isWhitespace c = false := by
  have := h.bounds
  exact not_whitespace_of_visible (by omega) (by omega)

/-- A label that matches a pattern is nonempty, of bounded length, and made of the classes. -/
theorem label_pattern_spec {first inner last : CodeUnit → Bool} {label : JSString}
    (h : labelPattern first inner last label) :
    label ≠ [] ∧ label.length ≤ 63 ∧ ∀ c ∈ label, first c ∨ inner c ∨ last c := by
  cases label with
  | nil => simp [labelPattern] at h
  | cons c rest =>
      simp only [labelPattern, Bool.and_eq_true, Bool.or_eq_true, List.isEmpty_iff,
        decide_eq_true_eq, List.all_eq_true] at h
      obtain ⟨hfirst, rfl | ⟨⟨hlength, hinner⟩, hlast⟩⟩ := h
      · simp [hfirst]
      · refine ⟨by simp, by simp only [List.length_cons]; omega, fun d hd => ?_⟩
        rcases List.mem_cons.mp hd with rfl | hd
        · exact Or.inl hfirst
        · obtain ⟨hne, hlast⟩ : ∃ hne : rest ≠ [], last (rest.getLast hne) = true := by
            cases rest with
            | nil => simp at hd
            | cons e tail => exact ⟨by simp, by simpa [List.getLast?_eq_some_getLast] using hlast⟩
          rw [← List.dropLast_append_getLast hne] at hd
          rcases List.mem_append.mp hd with hd | hd
          · exact Or.inr (Or.inl (hinner d hd))
          · exact Or.inr (Or.inr (by simpa [List.mem_singleton.mp hd] using hlast))

theorem handshake_label_spec {label : JSString} (h : handshakeLabelRe label) :
    label ≠ [] ∧ label.length ≤ 63 ∧ ∀ c ∈ label, isLowerAlnum c ∨ c = unit '-' := by
  obtain ⟨hne, hlength, hunits⟩ := label_pattern_spec h
  refine ⟨hne, hlength, fun c hc => ?_⟩
  rcases hunits c hc with hc | hc | hc
  · exact Or.inl hc
  · simpa using hc
  · exact Or.inl hc

/-- The label loop passes exactly when every label is short enough and matches. -/
theorem check_labels_ok {pattern : JSString → Bool} {tooLong invalid : JSString}
    {labels : List JSString} :
    checkLabels pattern tooLong invalid labels = .ok () ↔
      ∀ label ∈ labels, label.length ≤ 63 ∧ pattern label := by
  induction labels with
  | nil => simp [checkLabels]
  | cons label rest ih =>
      by_cases hlength : label.length > 63
      · have hlong : ¬ label.length ≤ 63 := by omega
        simp [checkLabels, hlength, hlong]
      · have hshort : label.length ≤ 63 := by omega
        by_cases hpattern : pattern label <;> simp [checkLabels, hlength, hshort, hpattern, ih]

namespace IsHandshakeName

variable {name : JSString}

theorem units (h : IsHandshakeName name) {c : CodeUnit} (hc : c ∈ name) : IsNameUnit c := by
  by_cases hdot : c = unit '.'
  · exact Or.inr (Or.inr hdot)
  · obtain ⟨label, hlabel, hmem⟩ := exists_piece_of_mem hc hdot
    rcases (handshake_label_spec (h.labels label hlabel)).2.2 c hmem with hc | hc
    · exact Or.inl hc
    · exact Or.inr (Or.inl hc)

theorem ne_nil (h : IsHandshakeName name) : name ≠ [] := by
  rintro rfl
  exact (handshake_label_spec (h.labels [] (by simp [split]))).1 rfl

/-- The last label is not empty, so the name does not end with a dot. -/
theorem not_dot_last (h : IsHandshakeName name) : name.getLast? ≠ some (unit '.') := by
  intro hlast
  have hname : name = name.dropLast ++ [unit '.'] := (List.dropLast_append_getLast? _ hlast).symm
  have hempty : [] ∈ split name (unit '.') := by
    rw [split, hname, List.splitOn_append_cons_self]
    simp
  exact (handshake_label_spec (h.labels [] hempty)).1 rfl

theorem trimmed (h : IsHandshakeName name) : Trimmed name :=
  trimmed_of_no_whitespace fun _ hc => (h.units hc).not_whitespace

theorem to_lower_case (h : IsHandshakeName name) : toLowerCase name = name :=
  to_lower_case_eq_self (fun _ hc => (h.units hc).isAscii) (fun _ hc => (h.units hc).asciiLower)

/-- A name in normal form is accepted and is its own normal form. -/
theorem normalize (h : IsHandshakeName name) : normalizeHandshakeName name = .ok name := by
  have hlabels : (split name (unit '.')).any List.isEmpty = false := by
    rw [List.any_eq_false]
    intro label hlabel
    simpa using (handshake_label_spec (h.labels label hlabel)).1
  have hcheck (tooLong invalid : JSString) :
      checkLabels handshakeLabelRe tooLong invalid (split name (unit '.')) = .ok () :=
    check_labels_ok.mpr fun label hlabel =>
      ⟨(handshake_label_spec (h.labels label hlabel)).2.1, h.labels label hlabel⟩
  have hlength : ¬ name.length > 253 := Nat.not_lt.mpr h.length_le
  have htrim : trim name = name := h.trimmed
  simp only [normalizeHandshakeName, htrim, List.isEmpty_iff, h.ne_nil, if_false, h.not_dot_last,
    h.to_lower_case, hlabels, hlength, hcheck, Bool.false_eq_true]
  rfl

end IsHandshakeName

/-- What `normalizeHandshakeName` returns is a name in normal form. -/
theorem normalize_valid {input name : JSString} (h : normalizeHandshakeName input = .ok name) :
    IsHandshakeName name := by
  simp only [normalizeHandshakeName] at h
  generalize (if (trim input).getLast? = some (unit '.') then (trim input).dropLast
    else trim input) = undotted at h
  split at h
  · cases h
  · split at h
    · cases h
    · split at h
      · cases h
      · rename_i hlength
        cases hcheck : checkLabels handshakeLabelRe (text "label is too long: ")
            (text "label is not a valid DNS label: ") _ with
        | error error => rw [hcheck] at h; cases h
        | ok =>
            rw [hcheck] at h
            cases h
            exact ⟨Nat.not_lt.mp hlength, fun label hlabel =>
              ((check_labels_ok.mp hcheck) label hlabel).2⟩

/-- Normalising twice is normalising once. -/
theorem normalize_idempotent {input name : JSString}
    (h : normalizeHandshakeName input = .ok name) : normalizeHandshakeName name = .ok name :=
  (normalize_valid h).normalize

/-! ## Lookup names -/

/-- A location other than `@` never yields the name itself. -/
theorem query_name_eq_name {name location : JSString} :
    queryNameOf name location = name ↔ location = text "@" := by
  constructor
  · intro h
    by_contra hne
    have hlength := congrArg List.length h
    simp only [queryNameOf, if_neg hne, List.length_append, List.length_cons] at hlength
    omega
  · rintro rfl
    exact if_pos rfl

/-- The entries collected: each carries the query name of its location, and none is seen before or
repeated. -/
theorem collect_lookup_names_spec {name : JSString} {seen : List JSString}
    {locations : List LookupLocation} {lookups : List Lookup}
    (h : collectLookupNames name seen locations = .ok lookups) :
    (∀ lookup ∈ lookups, lookup.queryName = queryNameOf name lookup.location ∧
      lookup.queryName ∉ seen) ∧ (lookups.map Lookup.queryName).Nodup := by
  induction locations generalizing seen lookups with
  | nil =>
      cases h
      simp
  | cons location rest ih =>
      simp only [collectLookupNames, bind, Except.bind] at h
      split at h
      · cases h
      · rename_i trimmed _
        split at h
        · cases h
        · split at h
          · exact ih h
          · rename_i hfresh
            split at h
            · cases h
            · rename_i more hmore
              cases h
              obtain ⟨hentries, hnodup⟩ := ih hmore
              refine ⟨fun lookup hlookup => ?_, ?_⟩
              · rcases List.mem_cons.mp hlookup with rfl | hlookup
                · exact ⟨rfl, hfresh⟩
                · obtain ⟨hquery, hnew⟩ := hentries lookup hlookup
                  exact ⟨hquery, fun hseen => hnew (List.mem_cons_of_mem _ hseen)⟩
              · rw [List.map_cons, List.nodup_cons]
                refine ⟨fun hmem => ?_, hnodup⟩
                obtain ⟨lookup, hlookup, heq⟩ := List.mem_map.mp hmem
                exact (hentries lookup hlookup).2 (by simp [heq])

/-- The lookup names of a name in normal form have pairwise distinct query names, and only the `@`
entry asks for the name itself. -/
theorem build_lookup_names_spec {name : JSString} (hname : IsHandshakeName name)
    {locations : Option (List LookupLocation)} {lookups : List Lookup}
    (h : buildLookupNames name locations = .ok lookups) :
    (∀ lookup ∈ lookups, lookup.queryName = queryNameOf name lookup.location) ∧
      (lookups.map Lookup.queryName).Nodup := by
  simp only [buildLookupNames, hname.normalize] at h
  obtain ⟨hentries, hnodup⟩ := collect_lookup_names_spec h
  exact ⟨fun lookup hlookup => (hentries lookup hlookup).1, hnodup⟩

end AgentResolver
