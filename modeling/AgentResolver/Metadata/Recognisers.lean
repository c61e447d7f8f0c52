import AgentResolver.Metadata.ParseLemmas

/-!
# The recognisers do not overlap

A versioned value has its first delimiter right after its marker, so the key that the bridge parser
reads from it is the marker and not a HeadlessProfile key. `not_versioned_and_bridge` is the
result.
-/

namespace AgentResolver

open JavaScript

/-- The two delimiters of a bridge record. -/
def isDelimiter (c : CodeUnit) : Prop := c = unit ':' ∨ c = unit '='

/-- A position that the search returns is within the part that ends with the unit. -/
theorem index_of_append_ge {before after : JSString} {c : CodeUnit} {index : Nat}
    (h : c ∉ before) (hindex : indexOf (before ++ after) c = some index) :
    before.length ≤ index := by
  induction before generalizing index with
  | nil => exact Nat.zero_le _
  | cons d before ih =>
      have hd : ¬ d = c := fun heq => h (by simp [heq])
      have hrest : c ∉ before := fun hmem => h (List.mem_cons_of_mem _ hmem)
      simp only [indexOf, List.cons_append, List.idxOf?_cons, beq_iff_eq, hd, if_false,
        Option.map_eq_some_iff] at hindex
      obtain ⟨position, hposition, rfl⟩ := hindex
      have := ih hrest hposition
      simp only [List.length_cons]
      omega

/-- The first delimiter is the one that no delimiter stands before. -/
theorem first_delimiter_index_append {before after : JSString} {c : CodeUnit}
    (hc : isDelimiter c) (h : ∀ d ∈ before, ¬ isDelimiter d) :
    firstDelimiterIndex (before ++ c :: after) = some before.length := by
  have hcolon : unit ':' ∉ before := fun hmem => h _ hmem (Or.inl rfl)
  have hequals : unit '=' ∉ before := fun hmem => h _ hmem (Or.inr rfl)
  unfold firstDelimiterIndex
  rcases hc with rfl | rfl
  · rw [index_of_append hcolon]
    cases hother : indexOf (before ++ unit ':' :: after) (unit '=') with
    | none => rfl
    | some index =>
        have hle := index_of_append_ge hequals hother
        show some (min before.length index) = some before.length
        rw [Nat.min_eq_left hle]
  · rw [index_of_append hequals]
    cases hother : indexOf (before ++ unit '=' :: after) (unit ':') with
    | none => rfl
    | some index =>
        have hle := index_of_append_ge hcolon hother
        show some (min index before.length) = some before.length
        rw [Nat.min_eq_right hle]

theorem first_delimiter_index_none {s : JSString} (h : ∀ c ∈ s, ¬ isDelimiter c) :
    firstDelimiterIndex s = none := by
  have hcolon : unit ':' ∉ s := fun hmem => h _ hmem (Or.inl rfl)
  have hequals : unit '=' ∉ s := fun hmem => h _ hmem (Or.inr rfl)
  rw [firstDelimiterIndex, index_of_none hcolon, index_of_none hequals]

instance (c : CodeUnit) : Decidable (isDelimiter c) := inferInstanceAs (Decidable (_ ∨ _))

/-- A bridge record has a first delimiter. -/
theorem delimiter_split {value : JSString} (h : isBridge value) :
    ∃ before c after, value = before ++ c :: after ∧ isDelimiter c ∧
      ∀ d ∈ before, ¬ isDelimiter d := by
  have hsplit : value.takeWhile (fun c => !decide (isDelimiter c)) ++
      value.dropWhile (fun c => !decide (isDelimiter c)) = value :=
    List.takeWhile_append_dropWhile
  have hbefore : ∀ d ∈ value.takeWhile (fun c => !decide (isDelimiter c)), ¬ isDelimiter d :=
    fun d hd => by simpa using List.mem_takeWhile_imp hd
  cases hrest : value.dropWhile (fun c => !decide (isDelimiter c)) with
  | nil =>
      -- without a delimiter there is no key
      rw [hrest, List.append_nil] at hsplit
      rw [hsplit] at hbefore
      simp [isBridge, getHeadlessProfileKey, first_delimiter_index_none hbefore] at h
  | cons c after =>
      have hc := List.head?_dropWhile_not (fun c => !decide (isDelimiter c)) value
      rw [hrest] at hc hsplit
      exact ⟨_, c, after, hsplit.symm, by simpa using hc, hbefore⟩

/-- The key of a record is the text before its first delimiter. -/
theorem headless_profile_key_append {before after : JSString} {c : CodeUnit}
    (hc : isDelimiter c) (h : ∀ d ∈ before, ¬ isDelimiter d) :
    getHeadlessProfileKey (before ++ c :: after) =
      if toLowerCase (trim before) ∈ headlessProfileFields then some (toLowerCase (trim before))
      else none := by
  unfold getHeadlessProfileKey
  rw [first_delimiter_index_append hc h]
  simp only [delimitedKey, List.take_left]

/-- A text that starts with a bridge record is one. -/
theorem bridge_append {value tail : JSString} (h : isBridge value) : isBridge (value ++ tail) := by
  obtain ⟨before, c, after, rfl, hc, hbefore⟩ := delimiter_split h
  unfold isBridge at h ⊢
  rw [headless_profile_key_append hc hbefore] at h
  rw [List.append_assoc, List.cons_append, headless_profile_key_append hc hbefore]
  exact h

/-! ## The two markers -/

/-- A unit whose ASCII lower case is a visible unit other than the delimiters. -/
theorem not_delimiter_of_lower {c d : CodeUnit} (h : asciiLower c = d)
    (hcolon : d ≠ unit ':') (hequals : d ≠ unit '=') : ¬ isDelimiter c := by
  rintro (rfl | rfl)
  · exact hcolon (h ▸ rfl)
  · exact hequals (h ▸ rfl)

theorem ascii_of_lower {c : CodeUnit} (h : IsAscii (asciiLower c)) : IsAscii c := by
  unfold asciiLower at h
  unfold IsAscii at h ⊢
  split at h
  · rename_i hupper
    have hle : c.toNat ≤ 0x5A := hupper.2
    exact UInt16.lt_iff_toNat_lt.mpr (by simp only [UInt16.reduceToNat]; omega)
  · exact h

theorem whitespace_not_delimiter {c : CodeUnit} (h : isWhitespace c) : ¬ isDelimiter c := by
  rintro (rfl | rfl) <;> exact absurd h (by decide)

/-- A word followed by whitespace trims to the word. -/
theorem trim_append_whitespace {word space : JSString}
    (hword : ∀ c ∈ word, isWhitespace c = false) (hne : word ≠ [])
    (hspace : ∀ c ∈ space, isWhitespace c) : trim (word ++ space) = word := by
  have hstart : (word ++ space).dropWhile isWhitespace = word ++ space := by
    obtain ⟨c, rest, rfl⟩ := List.exists_cons_of_ne_nil hne
    exact List.dropWhile_cons_of_neg (by simp [hword c])
  have hreverse : (word ++ space).reverse.dropWhile isWhitespace = word.reverse := by
    rw [List.reverse_append, List.dropWhile_append_of_pos (by simpa using hspace)]
    have hne' : word.reverse ≠ [] := by simpa using hne
    obtain ⟨c, rest, hword'⟩ := List.exists_cons_of_ne_nil hne'
    rw [hword']
    exact List.dropWhile_cons_of_neg (by
      simp [hword c (List.mem_reverse.mp (by rw [hword']; simp))])
  rw [trim, hstart, List.rdropWhile, hreverse, List.reverse_reverse]

/-- A value with the `hns-agent` marker: the marker in some case, space, and `=`. -/
theorem hns_agent_shape {value version : JSString} (h : hnsAgentMatch value = some version) :
    ∃ word space rest, value = word ++ space ++ unit '=' :: rest ∧
      word.map asciiLower = text "hns-agent" ∧ ∀ c ∈ space, isWhitespace c := by
  by_cases hname : (value.take (text "hns-agent").length).map asciiLower = text "hns-agent"
  · simp only [hnsAgentMatch, hname, if_true] at h
    split at h
    · cases h
    · rename_i c rest hdrop
      split at h
      · rename_i hc
        refine ⟨value.take (text "hns-agent").length,
          (value.drop (text "hns-agent").length).takeWhile isWhitespace, rest, ?_, hname, ?_⟩
        · rw [← hc, ← hdrop, List.append_assoc, List.takeWhile_append_dropWhile,
            List.take_append_drop]
        · intro d hd
          exact List.mem_takeWhile_imp hd
      · cases h
  · simp only [hnsAgentMatch, hname, if_false, reduceCtorEq] at h

/-- Whatever the case of its letters and the space before its `=`, an `hns-agent` value is no
bridge record. -/
theorem not_bridge_of_hns_agent {value version : JSString}
    (h : hnsAgentMatch value = some version) : isBridge value = false := by
  obtain ⟨word, space, rest, rfl, hword, hspace⟩ := hns_agent_shape h
  have hunit : ∀ c ∈ word, asciiLower c ∈ text "hns-agent" := fun c hc => by
    rw [← hword]
    exact List.mem_map_of_mem hc
  have hascii : ∀ c ∈ word, IsAscii c := fun c hc =>
    ascii_of_lower ((by decide : ∀ d ∈ text "hns-agent", IsAscii d) _ (hunit c hc))
  have hdelimiter : ∀ c ∈ word, ¬ isDelimiter c := fun c hc => by
    have hnot := (by decide : ∀ d ∈ text "hns-agent", d ≠ unit ':' ∧ d ≠ unit '=') _ (hunit c hc)
    exact not_delimiter_of_lower rfl hnot.1 hnot.2
  have hvisible : ∀ c ∈ word, isWhitespace c = false := fun c hc => by
    rcases Bool.eq_false_or_eq_true (isWhitespace c) with hc' | hc'
    · -- whitespace is its own lower case, and the marker has none
      have hlower : asciiLower c = c := if_neg fun hupper => by
        have hle : c.toNat ≤ 0x5A := hupper.2
        have hge : 0x41 ≤ c.toNat := hupper.1
        simp [not_whitespace_of_visible (by omega) (by omega : c.toNat ≤ 0x7E)] at hc'
      have hmem := hunit c hc
      rw [hlower] at hmem
      have hvisible :=
        (by decide : ∀ d ∈ text "hns-agent", isWhitespace d = false) c hmem
      exact absurd hc' (by simp [hvisible])
    · exact hc'
  have hne : word ≠ [] := by
    rintro rfl
    cases hword
  have hall : ∀ d ∈ word ++ space, ¬ isDelimiter d := fun d hd =>
    (List.mem_append.mp hd).elim (hdelimiter d) fun hd => whitespace_not_delimiter (hspace d hd)
  rw [isBridge, headless_profile_key_append (Or.inr rfl) hall,
    trim_append_whitespace hvisible hne hspace, to_lower_case_ascii hascii, hword]
  decide

/-- A value with the `agent-identity` marker is no bridge record. -/
theorem not_bridge_of_metadata_marker {value version : JSString}
    (h : metadataPrefixMatch value = some version) : isBridge value = false := by
  have hstart : startsWith value (text "agent-identity:v") := by
    by_contra hnot
    simp [metadataPrefixMatch, hnot] at h
  obtain ⟨payload, rfl⟩ := List.isPrefixOf_iff_prefix.mp hstart
  have hshape : text "agent-identity:v" ++ payload =
      text "agent-identity" ++ unit ':' :: (unit 'v' :: payload) :=
    append_parts [unit ':', unit 'v'] (by decide) payload
  have hall : ∀ d ∈ text "agent-identity", ¬ isDelimiter d := by
    intro d hd
    exact not_or.mpr ((by decide : ∀ d ∈ text "agent-identity", d ≠ unit ':' ∧ d ≠ unit '=') d hd)
  have hkey : toLowerCase (trim (text "agent-identity")) ∉ headlessProfileFields := by
    decide +kernel
  rw [isBridge, hshape, headless_profile_key_append (Or.inl rfl) hall, if_neg hkey]
  rfl

/-- No value is both versioned and a bridge record. -/
theorem not_versioned_and_bridge (value : JSString) :
    ¬ (isVersioned value ∧ isBridge value) := by
  rintro ⟨hversioned, hbridge⟩
  rcases Bool.or_eq_true_iff.mp hversioned with h | h
  · obtain ⟨version, hversion⟩ := Option.isSome_iff_exists.mp h
    simp [not_bridge_of_hns_agent hversion] at hbridge
  · obtain ⟨version, hversion⟩ := Option.isSome_iff_exists.mp h
    simp [not_bridge_of_metadata_marker hversion] at hbridge

end AgentResolver
