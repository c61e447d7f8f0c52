import AgentResolver.JavaScript.CaseMapping

/-!
# Strings whose lower case is ASCII

Unicode maps one letter outside ASCII into ASCII: the Kelvin sign becomes `k`. Every other code
point that is not ASCII has a lower case that is not ASCII either. So the strings whose lower case
is ASCII are those of ASCII units and Kelvin signs (`to_lower_case_ascii_iff`), and on them the
mapping works unit by unit (`to_lower_case_units`).
-/

namespace JavaScript

/-- U+212A KELVIN SIGN. -/
def kelvinSign : CodeUnit := 0x212A

/-- A unit whose lower case is ASCII. -/
def LowersToAscii (c : CodeUnit) : Prop := IsAscii c ∨ c = kelvinSign

/-- The letter `k` in place of a Kelvin sign. -/
def kelvinAsK (c : CodeUnit) : CodeUnit := if c = kelvinSign then unit 'k' else c

/-- The lower case of such a unit. -/
def lowerUnit (c : CodeUnit) : CodeUnit := asciiLower (kelvinAsK c)

/-! ## Code points -/

/-- The only table entry that leads into ASCII is that of the Kelvin sign. -/
theorem ascii_target {range : CaseRange} (h : range ∈ lowerRanges) (htarget : range.target < 0x80) :
    range.first = 0x212A ∧ range.last = 0x212A :=
  (by decide +kernel : ∀ range ∈ lowerRanges, range.target < 0x80 →
    range.first = 0x212A ∧ range.last = 0x212A) range h htarget

/-- The table stays inside the code points. -/
theorem target_lt {range : CaseRange} (h : range ∈ lowerRanges) :
    range.target + (range.last - range.first) < 0x110000 :=
  (by decide +kernel : ∀ range ∈ lowerRanges,
    range.target + (range.last - range.first) < 0x110000) range h

/-- The first code unit of a code point outside ASCII is outside ASCII. -/
theorem of_code_point_not_ascii {point : Nat} (hlow : 0x80 ≤ point) (hhigh : point < 0x110000) :
    ∃ c ∈ ofCodePoint point, ¬ IsAscii c := by
  unfold ofCodePoint
  split
  · rename_i hsmall
    refine ⟨UInt16.ofNat point, by simp, ?_⟩
    rw [IsAscii, UInt16.lt_iff_toNat_lt, UInt16.toNat_ofNat_of_lt' hsmall]
    simp only [UInt16.reduceToNat]
    omega
  · rename_i hlarge
    have hunit : 0xD800 + (point - 0x10000) / 0x400 < 0x10000 := by omega
    refine ⟨UInt16.ofNat (0xD800 + (point - 0x10000) / 0x400), by simp, ?_⟩
    rw [IsAscii, UInt16.lt_iff_toNat_lt, UInt16.toNat_ofNat_of_lt' hunit]
    simp only [UInt16.reduceToNat]
    omega

/-- A code point that is neither ASCII nor the Kelvin sign has a lower case outside ASCII. -/
theorem lower_code_point_not_ascii {point : Nat} (hlow : 0x80 ≤ point) (hhigh : point < 0x110000)
    (hkelvin : point ≠ 0x212A) :
    ∃ lower ∈ lowerCodePoint point, 0x80 ≤ lower ∧ lower < 0x110000 := by
  unfold lowerCodePoint
  rw [if_neg (by omega)]
  split
  · exact ⟨0x307, by simp, by omega⟩
  · split
    · rename_i range hrange
      have hmem := List.mem_of_find?_eq_some hrange
      have hbounds := List.find?_some hrange
      simp only [Bool.and_eq_true, decide_eq_true_eq, beq_iff_eq] at hbounds
      obtain ⟨⟨hfirst, hlast⟩, _⟩ := hbounds
      have htarget := target_lt hmem
      refine ⟨range.target + (point - range.first), by simp, ?_, by omega⟩
      by_contra hascii
      obtain ⟨hkelvinFirst, hkelvinLast⟩ := ascii_target hmem (by omega)
      omega
    · exact ⟨point, by simp, hlow, hhigh⟩

/-- Code points are below U+110000. -/
theorem code_point_lt {s : JSString} {point : Nat} (h : point ∈ codePoints s) :
    point < 0x110000 := by
  fun_induction codePoints s with
  | case1 => cases h
  | case2 c =>
      have hc : c.toNat < 0x10000 := c.toNat_lt
      rw [List.mem_singleton.mp h]
      omega
  | case3 high low rest hpair ih =>
      rcases List.mem_cons.mp h with hpoint | h
      · obtain ⟨_, hhigh, _, hlow⟩ := hpair
        have hhigh : high.toNat ≤ 0xDBFF := UInt16.le_iff_toNat_le.mp hhigh
        have hlow : low.toNat ≤ 0xDFFF := UInt16.le_iff_toNat_le.mp hlow
        rw [hpoint]
        omega
      · exact ih h
  | case4 high low rest _ ih =>
      rcases List.mem_cons.mp h with rfl | h
      · have hhigh : high.toNat < 0x10000 := high.toNat_lt
        omega
      · exact ih h

/-- Without code points above U+FFFF the code points are the code units. -/
theorem code_points_units {s : JSString} (h : ∀ point ∈ codePoints s, point < 0x10000) :
    codePoints s = s.map UInt16.toNat := by
  fun_induction codePoints s with
  | case1 => rfl
  | case2 => rfl
  | case3 high low rest hpair =>
      have hpoint := h _ List.mem_cons_self
      omega
  | case4 high low rest _ ih =>
      rw [ih fun point hpoint => h point (List.mem_cons_of_mem _ hpoint)]
      rfl

/-! ## Strings -/

/-- A unit that lowers to ASCII is no surrogate. -/
theorem LowersToAscii.bounds {c : CodeUnit} (h : LowersToAscii c) :
    c.toNat < 0x80 ∨ c.toNat = 0x212A := by
  rcases h with h | rfl
  · exact Or.inl h
  · exact Or.inr rfl

theorem lower_code_point_unit {c : CodeUnit} (h : LowersToAscii c) :
    lowerCodePoint c.toNat = [(lowerUnit c).toNat] := by
  rcases h with h | rfl
  · have hne : c ≠ kelvinSign := by
      rintro rfl
      exact absurd h (by decide)
    rw [lowerUnit, kelvinAsK, if_neg hne]
    exact lower_code_point_ascii h
  · decide +kernel

theorem lower_unit_ascii {c : CodeUnit} (h : LowersToAscii c) : IsAscii (lowerUnit c) := by
  rcases h with h | rfl
  · have hne : c ≠ kelvinSign := by
      rintro rfl
      exact absurd h (by decide)
    have hc : c.toNat < 0x80 := h
    rw [lowerUnit, kelvinAsK, if_neg hne, asciiLower]
    split
    · rename_i hupper
      have hlow : 0x41 ≤ c.toNat := hupper.1
      have hhigh : c.toNat ≤ 0x5A := hupper.2
      rw [IsAscii, UInt16.lt_iff_toNat_lt, UInt16.toNat_add]
      simp only [UInt16.reduceToNat]
      omega
    · exact h
  · decide

/-- The code points of a string that lowers to ASCII are its units. -/
theorem code_points_lowers {s : JSString} (h : ∀ c ∈ s, LowersToAscii c) :
    codePoints s = s.map UInt16.toNat := by
  fun_induction codePoints s with
  | case1 => rfl
  | case2 => rfl
  | case3 high low rest hpair =>
      have hhigh := (h high (by simp)).bounds
      have hsurrogate : 0xD800 ≤ high.toNat := hpair.1
      omega
  | case4 high low rest _ ih =>
      rw [ih (fun c hc => h c (List.mem_cons_of_mem _ hc))]
      rfl

/-- On a string that lowers to ASCII the mapping works unit by unit. -/
theorem to_lower_case_units {s : JSString} (h : ∀ c ∈ s, LowersToAscii c) :
    toLowerCase s = s.map lowerUnit := by
  suffices ∀ before, (lowerCodePoints before (s.map UInt16.toNat)).flatMap ofCodePoint =
      s.map lowerUnit by
    rw [toLowerCase, code_points_lowers h, this]
  induction s with
  | nil => intro before; rfl
  | cons c rest ih =>
      intro before
      have hc := (h c (by simp)).bounds
      rw [List.map_cons, lowerCodePoints, if_neg (by omega), lower_code_point_unit (h c (by simp)),
        List.flatMap_append, ih (fun d hd => h d (List.mem_cons_of_mem _ hd))]
      simp [of_code_point_unit]

/-- A code point that is not ASCII and not the Kelvin sign leaves a unit outside ASCII in the lower
case of every sequence that contains it. -/
theorem lower_code_points_not_ascii {points before : List Nat} {point : Nat}
    (hpoint : point ∈ points) (hlow : 0x80 ≤ point) (hhigh : point < 0x110000)
    (hkelvin : point ≠ 0x212A) :
    ∃ c ∈ (lowerCodePoints before points).flatMap ofCodePoint, ¬ IsAscii c := by
  induction points generalizing before with
  | nil => cases hpoint
  | cons first rest ih =>
      rw [lowerCodePoints, List.flatMap_append]
      rcases List.mem_cons.mp hpoint with rfl | hrest
      · have hlower : ∃ lower ∈ (if point = 0x3A3 then
            [if isFinalSigma before rest then 0x3C2 else 0x3C3] else lowerCodePoint point),
            0x80 ≤ lower ∧ lower < 0x110000 := by
          split
          · refine ⟨_, List.mem_singleton.mpr rfl, ?_⟩
            split <;> omega
          · exact lower_code_point_not_ascii hlow hhigh hkelvin
        obtain ⟨lower, hmem, hlowerLow, hlowerHigh⟩ := hlower
        obtain ⟨c, hc, hascii⟩ := of_code_point_not_ascii hlowerLow hlowerHigh
        exact ⟨c, List.mem_append_left _ (List.mem_flatMap.mpr ⟨lower, hmem, hc⟩), hascii⟩
      · obtain ⟨c, hc, hascii⟩ := @ih (first :: before) hrest
        exact ⟨c, List.mem_append_right _ hc, hascii⟩

/-- The strings whose lower case is ASCII. -/
theorem to_lower_case_ascii_iff {s : JSString} :
    (∀ c ∈ toLowerCase s, IsAscii c) ↔ ∀ c ∈ s, LowersToAscii c := by
  constructor
  · intro h
    have hpoints : ∀ point ∈ codePoints s, point < 0x80 ∨ point = 0x212A := by
      intro point hpoint
      by_contra hnot
      obtain ⟨c, hc, hascii⟩ := @lower_code_points_not_ascii (codePoints s) [] point hpoint
        (by omega) (code_point_lt hpoint) (by omega)
      exact hascii (h c hc)
    have hunits := code_points_units fun point hpoint => by
      have := hpoints point hpoint
      omega
    intro c hc
    rcases hpoints c.toNat (hunits ▸ List.mem_map_of_mem hc) with hascii | hkelvin
    · exact Or.inl hascii
    · exact Or.inr (UInt16.toNat_inj.mp hkelvin)
  · intro h c hc
    rw [to_lower_case_units h] at hc
    obtain ⟨d, hd, rfl⟩ := List.mem_map.mp hc
    exact lower_unit_ascii (h d hd)

end JavaScript
