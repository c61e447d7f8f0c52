import AgentResolver.JavaScript.CaseData
import AgentResolver.JavaScript.Strings

/-!
# Lower case

`toLowerCase` is the Unicode default lower-case mapping, applied to the code points of a string
as the language prescribes: surrogate pairs are read as one code point, lone surrogates are kept,
`İ` becomes two code points, and a capital sigma becomes `ς` or `σ` by its neighbours.
-/

namespace JavaScript

/-- The code points of a string; a lone surrogate counts as a code point of its own. -/
def codePoints : JSString → List Nat
  | [] => []
  | [c] => [c.toNat]
  | high :: low :: rest =>
      if 0xD800 ≤ high ∧ high ≤ 0xDBFF ∧ 0xDC00 ≤ low ∧ low ≤ 0xDFFF then
        (0x10000 + (high.toNat - 0xD800) * 0x400 + (low.toNat - 0xDC00)) :: codePoints rest
      else high.toNat :: codePoints (low :: rest)

/-- The code units of a code point. -/
def ofCodePoint (point : Nat) : JSString :=
  if point < 0x10000 then [UInt16.ofNat point]
  else
    [UInt16.ofNat (0xD800 + (point - 0x10000) / 0x400),
      UInt16.ofNat (0xDC00 + (point - 0x10000) % 0x400)]

/-- Membership in a sorted table of ranges. -/
def inRanges (ranges : List (Nat × Nat)) (point : Nat) : Bool :=
  ranges.any fun range => range.1 ≤ point && point ≤ range.2

/-- The lower case of a code point on its own. -/
def lowerCodePoint (point : Nat) : List Nat :=
  if point < 0x80 then [if 0x41 ≤ point ∧ point ≤ 0x5A then point + 0x20 else point]
  else if point = 0x130 then [0x69, 0x307]
  else
    match lowerRanges.find? fun range =>
        range.first ≤ point && point ≤ range.last && (point - range.first) % range.step == 0 with
    | some range => [range.target + (point - range.first)]
    | none => [point]

/-- The `Final_Sigma` context: a cased letter stands before, none after, case-ignorable code
points being skipped. `before` lists the preceding code points, nearest first. -/
def isFinalSigma (before after : List Nat) : Bool :=
  let nearestIsCased (points : List Nat) : Bool :=
    (points.find? fun point => !inRanges caseIgnorableRanges point).any (inRanges casedRanges)
  nearestIsCased before && !nearestIsCased after

/-- The lower case of a sequence of code points that stands after `before`. -/
def lowerCodePoints (before : List Nat) : List Nat → List Nat
  | [] => []
  | point :: after =>
      (if point = 0x3A3 then [if isFinalSigma before after then 0x3C2 else 0x3C3]
        else lowerCodePoint point) ++ lowerCodePoints (point :: before) after

/-- `s.toLowerCase()`. -/
def toLowerCase (s : JSString) : JSString :=
  (lowerCodePoints [] (codePoints s)).flatMap ofCodePoint

/-- A code unit below U+0080. -/
def IsAscii (c : CodeUnit) : Prop := c < 0x80

instance (c : CodeUnit) : Decidable (IsAscii c) := inferInstanceAs (Decidable (c < 0x80))

/-- In an ASCII string every unit is a code point. -/
theorem code_points_ascii {s : JSString} (h : ∀ c ∈ s, IsAscii c) :
    codePoints s = s.map UInt16.toNat := by
  fun_induction codePoints s with
  | case1 => rfl
  | case2 => rfl
  | case3 high low rest hpair =>
      have hhigh : high < 0x80 := h high (by simp)
      exact absurd (UInt16.le_trans hpair.1 (UInt16.le_of_lt hhigh)) (by decide)
  | case4 high low rest _ ih =>
      rw [ih (fun c hc => h c (List.mem_cons_of_mem _ hc))]
      rfl

/-- The lower case of an ASCII unit, as a code point. -/
theorem lower_code_point_ascii {c : CodeUnit} (h : IsAscii c) :
    lowerCodePoint c.toNat = [(asciiLower c).toNat] := by
  have hc : c.toNat < 0x80 := h
  unfold lowerCodePoint asciiLower
  rw [if_pos hc]
  by_cases hupper : 0x41 ≤ c ∧ c ≤ 0x5A
  · have hnat : 0x41 ≤ c.toNat ∧ c.toNat ≤ 0x5A := hupper
    rw [if_pos hupper, if_pos hnat, UInt16.toNat_add]
    congr 1
    exact (Nat.mod_eq_of_lt (by simp; omega)).symm
  · have hnat : ¬ (0x41 ≤ c.toNat ∧ c.toNat ≤ 0x5A) := hupper
    rw [if_neg hupper, if_neg hnat]

/-- The code units of an ASCII unit read as a code point. -/
theorem of_code_point_unit (c : CodeUnit) : ofCodePoint c.toNat = [c] := by
  have hc : c.toNat < 0x10000 := c.toNat_lt
  simp [ofCodePoint, hc]

/-- On ASCII strings the mapping is the one of the letters A to Z, unit by unit. -/
theorem to_lower_case_ascii {s : JSString} (h : ∀ c ∈ s, IsAscii c) :
    toLowerCase s = s.map asciiLower := by
  suffices ∀ before, (lowerCodePoints before (s.map UInt16.toNat)).flatMap ofCodePoint =
      s.map asciiLower by
    rw [toLowerCase, code_points_ascii h, this]
  induction s with
  | nil => intro before; rfl
  | cons c rest ih =>
      intro before
      have hc : c.toNat < 0x80 := h c (by simp)
      rw [List.map_cons, lowerCodePoints, if_neg (by omega), lower_code_point_ascii hc,
        List.flatMap_append, ih (fun d hd => h d (List.mem_cons_of_mem _ hd))]
      simp [of_code_point_unit]

/-- Lower case leaves an ASCII string without capitals alone. -/
theorem to_lower_case_eq_self {s : JSString} (h : ∀ c ∈ s, IsAscii c)
    (hlower : ∀ c ∈ s, asciiLower c = c) : toLowerCase s = s := by
  rw [to_lower_case_ascii h]
  exact (List.map_congr_left hlower).trans (List.map_id s)

example : toLowerCase [0x212A, unit 'E', unit 'Y'] = text "key" := by decide +kernel
example : toLowerCase [unit 'A', 0x3A3, unit '.'] = [unit 'a', 0x3C2, unit '.'] := by
  decide +kernel

end JavaScript
