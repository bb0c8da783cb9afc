import Mathlib.Data.Rat.Cast.Order
import Mathlib.Tactic.FieldSimp
import Mathlib.Tactic.Linarith
import Mathlib.Tactic.NormNum
import Mathlib.Tactic.Positivity
import Mathlib.Tactic.Ring
import Mathlib.Algebra.Order.Field.Power
import PromptRunner.Number.Binary

/-!
# How far rounding goes

Rounding a quotient chooses a last place and takes the nearest whole number of it. Everything that
is said of a rounded number here follows from two facts. The place is right: the quotient has fewer
digits above it than the format is wide, and as many as that, or the place is the least one. And
the nearest whole number is at most half away.

So a quotient short of the middle between the greatest number and the next place is rounded to a
number of the format, and the number exceeds the quotient by no more than half a place.
-/

namespace PromptRunner.Number

/-- The number that a magnitude stands for. -/
def Magnitude.value (x : Magnitude) : ℚ := x.mantissa * 2 ^ x.exponent

/-- A magnitude is one of a format's. -/
structure Magnitude.Fits (f : Format) (x : Magnitude) : Prop where
  mantissa_lt : x.mantissa < 2 ^ f.width
  least_le : f.least ≤ x.exponent
  le_greatest : x.exponent ≤ f.greatest

theorem Magnitude.value_nonneg (x : Magnitude) : 0 ≤ x.value := by
  unfold Magnitude.value
  positivity

theorem Magnitude.ratio_value (x : Magnitude) :
    0 < x.ratio.2 ∧ (x.ratio.1 : ℚ) / x.ratio.2 = x.value := by
  unfold Magnitude.ratio Magnitude.value
  split
  · next h =>
    obtain ⟨k, hk⟩ := Int.eq_ofNat_of_zero_le h
    simp [hk]
  · next h =>
    obtain ⟨k, hk⟩ := Int.eq_ofNat_of_zero_le (show 0 ≤ -x.exponent by omega)
    have hexp : x.exponent = -(k : Int) := by omega
    refine ⟨by simp, ?_⟩
    simp [hexp, div_eq_mul_inv]

/-! ## The nearest whole number -/

/-- Twice the nearest multiple is at most one divisor away from twice the number. -/
theorem nearestEven_near (num : Nat) {den : Nat} (h : 0 < den) :
    2 * (nearestEven num den * den) ≤ 2 * num + den ∧
      2 * num ≤ 2 * (nearestEven num den * den) + den := by
  have hdiv := Nat.div_add_mod' num den
  have hmod := Nat.mod_lt num h
  have hnext : (num / den + 1) * den = num / den * den + den := Nat.succ_mul _ _
  simp only [nearestEven]
  split
  · omega
  · split
    · omega
    · split <;> omega

/-- As a statement on quotients: the nearest whole number is at most a half away. -/
theorem nearestEven_bounds (num : Nat) {den : Nat} (h : 0 < den) :
    (nearestEven num den : ℚ) ≤ num / den + 1 / 2 ∧
      (num : ℚ) / den ≤ nearestEven num den + 1 / 2 := by
  have hden : (0 : ℚ) < den := by exact_mod_cast h
  obtain ⟨hnear, hfar⟩ := nearestEven_near num h
  have hle : (2 : ℚ) * (nearestEven num den * den) ≤ 2 * num + den := by exact_mod_cast hnear
  have hge : (2 : ℚ) * num ≤ 2 * (nearestEven num den * den) + den := by exact_mod_cast hfar
  constructor
  · rw [div_add_div _ _ hden.ne' two_ne_zero, le_div_iff₀ (by positivity)]
    linarith
  · rw [div_le_iff₀ hden]
    linarith

/-! ## The place -/

theorem scaled_value (num : Nat) {den : Nat} (h : 0 < den) (exponent : Int) :
    0 < (scaled num den exponent).2 ∧
      ((scaled num den exponent).1 : ℚ) / (scaled num den exponent).2 =
        num / den / 2 ^ exponent := by
  unfold scaled
  split
  · next he =>
    obtain ⟨k, hk⟩ := Int.eq_ofNat_of_zero_le he
    refine ⟨Nat.mul_pos h (Nat.pow_pos two_pos), ?_⟩
    simp [hk, div_div]
  · next he =>
    obtain ⟨k, hk⟩ := Int.eq_ofNat_of_zero_le (show 0 ≤ -exponent by omega)
    have hexp : exponent = -(k : Int) := by omega
    refine ⟨h, ?_⟩
    simp [hexp, mul_div_right_comm]

theorem log2_bounds {n : Nat} (h : n ≠ 0) :
    (2 : ℚ) ^ (n.log2 : Int) ≤ n ∧ (n : ℚ) < 2 ^ ((n.log2 : Int) + 1) := by
  have hle : 2 ^ n.log2 ≤ n := Nat.log2_self_le h
  have hlt : n < 2 ^ (n.log2 + 1) := Nat.lt_log2_self
  constructor
  · exact_mod_cast hle
  · exact_mod_cast hlt

/-- A quotient lies between the powers of two that its parts give. -/
theorem quotient_bounds {num den : Nat} (hn : num ≠ 0) (hd : den ≠ 0) :
    (2 : ℚ) ^ ((num.log2 : Int) - den.log2 - 1) < num / den ∧
      (num : ℚ) / den < 2 ^ ((num.log2 : Int) - den.log2 + 1) := by
  obtain ⟨hn1, hn2⟩ := log2_bounds hn
  obtain ⟨hd1, hd2⟩ := log2_bounds hd
  have hpos : (0 : ℚ) < den := by exact_mod_cast Nat.pos_of_ne_zero hd
  constructor
  · rw [lt_div_iff₀ hpos]
    calc (2 : ℚ) ^ ((num.log2 : Int) - den.log2 - 1) * den
        < 2 ^ ((num.log2 : Int) - den.log2 - 1) * 2 ^ ((den.log2 : Int) + 1) := by gcongr
      _ = 2 ^ (num.log2 : Int) := by rw [← zpow_add₀ two_ne_zero]; congr 1; ring
      _ ≤ num := hn1
  · rw [div_lt_iff₀ hpos]
    calc (num : ℚ) < 2 ^ ((num.log2 : Int) + 1) := hn2
      _ = 2 ^ ((num.log2 : Int) - den.log2 + 1) * 2 ^ (den.log2 : Int) := by
        rw [← zpow_add₀ two_ne_zero]; congr 1; ring
      _ ≤ 2 ^ ((num.log2 : Int) - den.log2 + 1) * den := by gcongr

namespace Format

variable {f : Format}

/-- The quotient has no more digits above the place than the format is wide, and as many, or the
place is the least one. -/
theorem place_spec (hw : 0 < f.width) {num den : Nat} (hn : num ≠ 0) (hd : den ≠ 0) :
    f.least ≤ f.place num den ∧ (num : ℚ) / den < 2 ^ (f.place num den + f.width) ∧
      (f.place num den = f.least ∨ (2 : ℚ) ^ (f.place num den + f.width - 1) ≤ num / den) := by
  obtain ⟨hlow, hhigh⟩ := quotient_bounds hn hd
  obtain ⟨width, hwidth⟩ : ∃ width, f.width = width + 1 := ⟨f.width - 1, by omega⟩
  set guess : Int := (num.log2 : Int) - den.log2 - (width : Nat) with hguess
  obtain ⟨hpos, hvalue⟩ := scaled_value num (Nat.pos_of_ne_zero hd) guess
  have hden : (0 : ℚ) < (scaled num den guess).2 := by exact_mod_cast hpos
  -- the test compares the quotient with the least number that fills the width
  have htest : (scaled num den guess).2 * Nat.pow 2 width ≤ (scaled num den guess).1 ↔
      (2 : ℚ) ^ (guess + width) ≤ num / den := by
    rw [zpow_add₀ two_ne_zero, zpow_natCast, ← le_div_iff₀' (by positivity), ← hvalue,
      le_div_iff₀ hden, Nat.pow_eq, mul_comm]
    exact_mod_cast Iff.rfl
  have hplace : f.place num den = max f.least
      (if (2 : ℚ) ^ (guess + width) ≤ num / den then guess else guess - 1) := by
    simp only [place, hwidth, Nat.add_sub_cancel, ← hguess]
    congr 1
    exact if_congr htest rfl rfl
  have hmono : ∀ {a b : Int}, a ≤ b → (2 : ℚ) ^ a ≤ 2 ^ b := fun h =>
    zpow_le_zpow_right₀ one_le_two h
  rw [hplace, hwidth]
  push_cast
  split
  · next h =>
    refine ⟨le_max_left _ _, lt_of_lt_of_le hhigh (hmono ?_), ?_⟩
    · have := le_max_right f.least guess
      omega
    · rcases max_cases f.least guess with ⟨hm, -⟩ | ⟨hm, -⟩
      · exact .inl hm
      · refine .inr (le_trans (hmono ?_) h)
        omega
  · next h =>
    refine ⟨le_max_left _ _, lt_of_lt_of_le (not_le.1 h) (hmono ?_), ?_⟩
    · have := le_max_right f.least (guess - 1)
      omega
    · rcases max_cases f.least (guess - 1) with ⟨hm, -⟩ | ⟨hm, -⟩
      · exact .inl hm
      · refine .inr (le_trans (hmono ?_) hlow.le)
        omega

/-- The whole number of places that a quotient is rounded to. -/
def steps (f : Format) (num den : Nat) : Nat :=
  nearestEven (scaled num den (f.place num den)).1 (scaled num den (f.place num den)).2

theorem steps_bounds (f : Format) (num : Nat) {den : Nat} (hd : den ≠ 0) :
    (f.steps num den : ℚ) ≤ num / den / 2 ^ f.place num den + 1 / 2 ∧
      (num : ℚ) / den / 2 ^ f.place num den ≤ f.steps num den + 1 / 2 := by
  obtain ⟨hpos, hvalue⟩ :=
    scaled_value num (Nat.pos_of_ne_zero hd) (f.place num den)
  rw [← hvalue]
  exact nearestEven_bounds _ hpos

/-- Rounding never fills more than the width. -/
theorem steps_le (hw : 0 < f.width) {num den : Nat} (hn : num ≠ 0) (hd : den ≠ 0) :
    f.steps num den ≤ 2 ^ f.width := by
  obtain ⟨-, hlt, -⟩ := place_spec hw hn hd
  have hq : (num : ℚ) / den / 2 ^ f.place num den < 2 ^ f.width := by
    rw [div_lt_iff₀ (by positivity), ← zpow_natCast, ← zpow_add₀ two_ne_zero, add_comm]
    exact hlt
  by_contra hgt
  have hge : (2 : ℚ) ^ f.width + 1 ≤ f.steps num den := by exact_mod_cast not_le.1 hgt
  have := (f.steps_bounds num hd).1
  linarith

/-- A number of places in lowest place: a full width moves up by one. -/
def carried (f : Format) (num den : Nat) : Magnitude :=
  if f.steps num den = 2 ^ f.width then ⟨2 ^ (f.width - 1), f.place num den + 1⟩
  else ⟨f.steps num den, f.place num den⟩

theorem round_of_ne_zero {num : Nat} (hn : num ≠ 0) (den : Nat) :
    f.round num den =
      if (f.carried num den).exponent ≤ f.greatest then some (f.carried num den) else none := by
  rw [round, if_neg hn]
  rfl

/-- Carrying changes the parts of a number and not its value. -/
theorem carried_spec (hw : 0 < f.width) {num den : Nat} (hn : num ≠ 0) (hd : den ≠ 0) :
    (f.carried num den).value = f.steps num den * 2 ^ f.place num den ∧
      (f.carried num den).mantissa < 2 ^ f.width ∧ f.least ≤ (f.carried num den).exponent := by
  have hle := steps_le hw hn hd
  have hleast := (place_spec hw hn hd).1
  unfold carried
  split
  · next hfull =>
    obtain ⟨width, hwidth⟩ : ∃ width, f.width = width + 1 := ⟨f.width - 1, by omega⟩
    refine ⟨?_, Nat.pow_lt_pow_right one_lt_two (by omega), show f.least ≤ _ + 1 by omega⟩
    rw [hfull, Magnitude.value, hwidth, zpow_add₀ two_ne_zero, Nat.add_sub_cancel]
    push_cast
    ring
  · next hfull => exact ⟨rfl, lt_of_le_of_ne hle hfull, hleast⟩

theorem fits_of_round (hw : 0 < f.width) (hf : f.least ≤ f.greatest) {num den : Nat} (hd : den ≠ 0)
    {x : Magnitude} (h : f.round num den = some x) : x.Fits f := by
  by_cases hn : num = 0
  · rw [round, if_pos hn] at h
    cases h
    exact ⟨Nat.pow_pos two_pos, le_refl _, hf⟩
  · obtain ⟨-, hlt, hleast⟩ := carried_spec hw hn hd
    rw [round_of_ne_zero hn] at h
    split at h
    · next hgreatest =>
      cases h
      exact ⟨hlt, hleast, hgreatest⟩
    · exact absurd h (by simp)

/-- Half a place is a part of the quotient or half of the least place. -/
theorem half_place_le (hw : 0 < f.width) {num den : Nat} (hn : num ≠ 0) (hd : den ≠ 0) :
    (2 : ℚ) ^ f.place num den / 2 ≤ max ((num : ℚ) / den / 2 ^ f.width) (2 ^ (f.least - 1)) := by
  rcases (place_spec hw hn hd).2.2 with hplace | hplace
  · refine le_max_of_le_right (le_of_eq ?_)
    rw [hplace, zpow_sub₀ two_ne_zero, zpow_one]
  · refine le_max_of_le_left ?_
    rw [le_div_iff₀ (by positivity)]
    refine le_trans (le_of_eq ?_) hplace
    rw [zpow_sub₀ two_ne_zero, zpow_add₀ two_ne_zero, zpow_one, zpow_natCast]
    ring

/-- A rounded number and its quotient are at most half a place apart, which is a part of the
quotient or half of the least place. -/
theorem value_bounds_of_round (hw : 0 < f.width) {num den : Nat} (hd : den ≠ 0) {x : Magnitude}
    (h : f.round num den = some x) :
    x.value ≤ (num : ℚ) / den + max ((num : ℚ) / den / 2 ^ f.width) (2 ^ (f.least - 1)) ∧
      (num : ℚ) / den ≤ x.value + max ((num : ℚ) / den / 2 ^ f.width) (2 ^ (f.least - 1)) := by
  by_cases hn : num = 0
  · rw [round, if_pos hn] at h
    cases h
    have hzero : (Magnitude.zero f).value = 0 := by simp [Magnitude.value, Magnitude.zero]
    rw [hzero, hn]
    constructor <;> norm_num
  · obtain ⟨hvalue, -⟩ := carried_spec hw hn hd
    rw [round_of_ne_zero hn] at h
    split at h
    · cases h
      rw [hvalue]
      have hpos : (0 : ℚ) < 2 ^ f.place num den := by positivity
      have hhalf := half_place_le (f := f) hw hn hd
      obtain ⟨hle, hge⟩ := f.steps_bounds num hd
      have hle := mul_le_mul_of_nonneg_right hle hpos.le
      have hge := mul_le_mul_of_nonneg_right hge hpos.le
      rw [add_mul, div_mul_cancel₀ _ hpos.ne'] at hle hge
      constructor <;> linarith
    · exact absurd h (by simp)

theorem exists_round (hw : 0 < f.width) (hf : f.least ≤ f.greatest) {num den : Nat} (hd : den ≠ 0)
    (h : (num : ℚ) / den < (2 ^ f.width - 1 / 2) * 2 ^ f.greatest) :
    ∃ x, f.round num den = some x := by
  by_cases hn : num = 0
  · exact ⟨.zero f, by rw [round, if_pos hn]⟩
  · rw [round_of_ne_zero hn]
    have hpos : (0 : ℚ) < 2 ^ f.greatest := by positivity
    have hplace : f.place num den ≤ f.greatest := by
      rcases (place_spec hw hn hd).2.2 with hleast | hbelow
      · rw [hleast]; exact hf
      · have hlt : (2 : ℚ) ^ (f.place num den + f.width - 1) < 2 ^ (f.greatest + f.width) := by
          refine lt_of_le_of_lt hbelow (lt_trans h ?_)
          rw [zpow_add₀ two_ne_zero, zpow_natCast, mul_comm]
          exact mul_lt_mul_of_pos_left (by linarith) hpos
        have := (zpow_lt_zpow_iff_right₀ (one_lt_two (α := ℚ))).1 hlt
        omega
    have hexp : (f.carried num den).exponent ≤ f.greatest := by
      unfold carried
      split
      · next hfull =>
        -- a carry at the greatest place would need the quotient to reach the middle
        show f.place num den + 1 ≤ f.greatest
        by_contra hgt
        have heq : f.place num den = f.greatest := by omega
        have hsteps := (f.steps_bounds num hd).1
        rw [hfull, heq] at hsteps
        have hmiddle := mul_le_mul_of_nonneg_right hsteps hpos.le
        rw [add_mul, div_mul_cancel₀ _ hpos.ne'] at hmiddle
        push_cast at hmiddle
        linarith
      · exact hplace
    exact ⟨_, if_pos hexp⟩

end Format

end PromptRunner.Number
