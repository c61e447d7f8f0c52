import AgentResolver.JavaScript.Values
import Mathlib.Data.Int.Log
import Mathlib.Data.Rat.Floor
import Mathlib.Tactic.Linarith
import Mathlib.Tactic.NormNum
import Mathlib.Tactic.Positivity

/-!
# Double precision numbers

The rounding of a rational number to the number of the language that stands for it: the nearest
double, of two the one with an even significand, and an infinity from `2 ^ 1024` on. The doubles
are the multiples of the places down to `2 ^ -1074` by at most `2 ^ 53` (`to_double_multiple`).
The two zeros are one here.
-/

namespace JavaScript

/-! ## Rounding to an integer -/

/-- The integer next to `x`, of two the even one. -/
def roundHalfEven (x : Rat) : Int :=
  let rest := x - ⌊x⌋
  if rest < 1 / 2 ∨ (rest = 1 / 2 ∧ ⌊x⌋ % 2 = 0) then ⌊x⌋ else ⌊x⌋ + 1

/-- An integer is not rounded. -/
@[simp] theorem round_half_even_int (n : Int) : roundHalfEven n = n := by
  simp [roundHalfEven]

/-- The rounded number is one of the two integers around `x`. -/
theorem round_half_even_cases (x : Rat) :
    roundHalfEven x = ⌊x⌋ ∨ (roundHalfEven x = ⌊x⌋ + 1 ∧ (⌊x⌋ : Rat) < x) := by
  unfold roundHalfEven
  dsimp only
  split
  · exact Or.inl rfl
  · rename_i h
    refine Or.inr ⟨rfl, (Int.floor_le x).lt_of_ne fun heq => h (Or.inl ?_)⟩
    rw [← heq, Int.floor_intCast, sub_self]
    norm_num

theorem round_half_even_le {x : Rat} {n : Int} (h : x ≤ n) : roundHalfEven x ≤ n := by
  rcases round_half_even_cases x with hround | ⟨hround, hlt⟩
  · rw [hround]
    exact Int.floor_le_iff.mpr (h.trans_lt (lt_add_one _))
  · have hbelow : ⌊x⌋ < n := by exact_mod_cast hlt.trans_le h
    omega

theorem le_round_half_even {x : Rat} {n : Int} (h : (n : Rat) ≤ x) : n ≤ roundHalfEven x := by
  have hfloor : n ≤ ⌊x⌋ := Int.le_floor.mpr h
  rcases round_half_even_cases x with hround | ⟨hround, -⟩
  · omega
  · omega

theorem abs_round_half_even_le {x : Rat} {n : Int} (h : |x| ≤ n) : |roundHalfEven x| ≤ n := by
  obtain ⟨hlow, hhigh⟩ := abs_le.mp h
  refine abs_le.mpr ⟨le_round_half_even ?_, round_half_even_le hhigh⟩
  rw [Int.cast_neg]
  exact hlow

/-! ## Rounding to a double -/

/-- The exponent of the last place that a double near `x` has. -/
def lastPlace (x : Rat) : Int := max (Int.log 2 |x| - 52) (-1074)

/-- `x` rounded to a multiple of its last place. -/
def roundToPlace (x : Rat) : Rat := roundHalfEven (x / 2 ^ lastPlace x) * 2 ^ lastPlace x

/-- The number that stands for `x`. -/
def toDouble (x : Rat) : Number :=
  if |roundToPlace x| < 2 ^ 1024 then .finite (roundToPlace x) else .infinite (x < 0)

/-- The numbers of the language. -/
def IsDouble (x : Rat) : Prop := toDouble x = .finite x

instance (x : Rat) : Decidable (IsDouble x) := inferInstanceAs (Decidable (toDouble x = .finite x))

theorem last_place_ge (x : Rat) : -1074 ≤ lastPlace x := le_max_right _ _

/-- A number has at most 53 binary digits in front of its last place. -/
theorem abs_lt_last_place (x : Rat) : |x| < 2 ^ (53 + lastPlace x) := by
  have hlog : |x| < ((2 : Nat) : Rat) ^ (Int.log 2 |x| + 1) :=
    Int.lt_zpow_succ_log_self (by decide) _
  have hplace : Int.log 2 |x| - 52 ≤ lastPlace x := le_max_left _ _
  refine hlog.trans_le ?_
  rw [Nat.cast_ofNat]
  exact zpow_le_zpow_right₀ (by norm_num) (by omega)

/-- The digits of a rounded number. -/
theorem abs_digits_le (x : Rat) : |roundHalfEven (x / 2 ^ lastPlace x)| ≤ 2 ^ 53 := by
  have hpos : (0 : Rat) < 2 ^ lastPlace x := zpow_pos (by norm_num) _
  have hlt := abs_lt_last_place x
  rw [zpow_add₀ (by norm_num)] at hlt
  refine abs_round_half_even_le ?_
  rw [abs_div, abs_of_pos hpos, div_le_iff₀ hpos]
  exact_mod_cast hlt.le

/-- The last place is at most the place from which fewer than 53 digits are left. -/
theorem last_place_le {x : Rat} {e : Int} (he : -1074 ≤ e) (h : |x| < 2 ^ (53 + e)) (hx : x ≠ 0) :
    lastPlace x ≤ e := by
  have hlog : Int.log 2 |x| < 53 + e := by
    rw [← Int.lt_zpow_iff_log_lt (by decide) (abs_pos.mpr hx), Nat.cast_ofNat]
    exact h
  exact max_le (by omega) he

/-- A multiple of a place that is not below the last one is not rounded. -/
theorem round_to_place_multiple {m e : Int} (h : lastPlace (m * 2 ^ e) ≤ e) :
    roundToPlace (m * 2 ^ e) = m * 2 ^ e := by
  obtain ⟨k, hk⟩ := Int.le.dest h
  have hdigits : (m : Rat) * 2 ^ e / 2 ^ lastPlace (m * 2 ^ e) = ((m * 2 ^ k : Int) : Rat) := by
    rw [mul_div_assoc, ← zpow_sub₀ (by norm_num), show e - lastPlace (m * 2 ^ e) = k by omega]
    push_cast
    rfl
  rw [roundToPlace, hdigits, round_half_even_int, ← hdigits,
    div_mul_cancel₀ _ (zpow_ne_zero _ (by norm_num))]

/-- A multiple of a place by at most 52 binary digits and a bit is not rounded. -/
theorem round_to_place_digits {m e : Int} (hm : |m| < 2 ^ 53) (he : -1074 ≤ e) :
    roundToPlace (m * 2 ^ e) = m * 2 ^ e := by
  by_cases hzero : (m : Rat) * 2 ^ e = 0
  · rw [hzero, roundToPlace, zero_div, show roundHalfEven 0 = 0 from round_half_even_int 0,
      Int.cast_zero, zero_mul]
  · refine round_to_place_multiple (last_place_le he ?_ hzero)
    have hdigits : |(m : Rat)| < 2 ^ 53 := by exact_mod_cast hm
    rw [abs_mul, abs_of_pos (zpow_pos (by norm_num : (0 : Rat) < 2) e), zpow_add₀ (by norm_num)]
    exact mul_lt_mul_of_pos_right hdigits (zpow_pos (by norm_num) e)

/-- Multiples of a place are doubles where the place and the number of digits are those of a
double. -/
theorem is_double_multiple {m e : Int} (hm : |m| ≤ 2 ^ 53) (he : -1074 ≤ e)
    (h : |(m : Rat) * 2 ^ e| < 2 ^ 1024) : IsDouble (m * 2 ^ e) := by
  have hplace : roundToPlace (m * 2 ^ e) = m * 2 ^ e := by
    rcases hm.lt_or_eq with hlt | heq
    · exact round_to_place_digits hlt he
    -- The power of two itself has one digit less in front of the next place.
    · obtain ⟨half, hhalf, hvalue⟩ : ∃ half : Int, |half| < 2 ^ 53 ∧ m = half * 2 := by
        rcases (abs_eq (by norm_num)).mp heq with rfl | rfl
        · exact ⟨2 ^ 52, by norm_num, by norm_num⟩
        · exact ⟨-2 ^ 52, by norm_num, by norm_num⟩
      have hshift : (m : Rat) * 2 ^ e = half * 2 ^ (e + 1) := by
        rw [hvalue, zpow_add_one₀ (by norm_num), Int.cast_mul, Int.cast_ofNat]
        ring
      rw [hshift]
      exact round_to_place_digits hhalf (by omega)
  unfold IsDouble toDouble
  rw [hplace, if_pos h]

/-- Rounding gives a double. -/
theorem to_double_is_double {x y : Rat} (h : toDouble x = .finite y) : IsDouble y := by
  unfold toDouble at h
  split at h
  · rename_i hsmall
    cases h
    exact is_double_multiple (abs_digits_le x) (last_place_ge x) hsmall
  · cases h

/-- The integers up to `2 ^ 53` are doubles. -/
theorem is_double_int {n : Int} (h : |n| ≤ 2 ^ 53) : IsDouble n := by
  have hsmall : |(n : Rat)| ≤ 2 ^ 53 := by exact_mod_cast h
  have hbound : (2 : Rat) ^ 53 < 2 ^ 1024 := pow_lt_pow_right₀ (by norm_num) (by norm_num)
  have hdouble := @is_double_multiple n 0 h (by norm_num)
  rw [zpow_zero, mul_one] at hdouble
  exact hdouble (hsmall.trans_lt hbound)

/-- A double is a multiple of its last place. -/
theorem IsDouble.multiple {x : Rat} (h : IsDouble x) :
    ∃ m : Int, |m| ≤ 2 ^ 53 ∧ x = m * 2 ^ lastPlace x ∧ |x| < 2 ^ 1024 := by
  have hround := h
  unfold IsDouble toDouble at hround
  split at hround
  · rename_i hsmall
    have hx : roundToPlace x = x := Number.finite.inj hround
    exact ⟨_, abs_digits_le x, hx.symm, hx ▸ hsmall⟩
  · cases hround

theorem IsDouble.neg {x : Rat} (h : IsDouble x) : IsDouble (-x) := by
  obtain ⟨m, hdigits, hx, hsmall⟩ := h.multiple
  have hneg : -x = ((-m : Int) : Rat) * 2 ^ lastPlace x := by
    rw [Int.cast_neg, neg_mul, ← hx]
  rw [hneg]
  refine is_double_multiple (by rwa [abs_neg]) (last_place_ge x) ?_
  rw [← hneg, abs_neg]
  exact hsmall

/-- The number with the other sign. -/
def Number.negate : Number → Number
  | .finite value => .finite (-value)
  | .infinite negative => .infinite !negative

end JavaScript
