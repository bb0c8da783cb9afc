import PromptRunner.Json.Numeral
import PromptRunner.Proofs.Number.Rounding

/-!
# Digits times a power of ten

A numeral's value is computed in two roundings before the last one: the digits are rounded, the
power of ten is rounded, and their product or quotient is rounded again. Each of the first two is
off by one part in 2 ^ 53 at most, so a value that is some places below the greatest number cannot
be carried past it, and the reader refuses nothing that small. `amplest` is where that is certain.

Dividing never gets there: powers of ten only make a number smaller, also when an exponent below
the least power is applied in steps.
-/

namespace PromptRunner.Json

open PromptRunner.Number

/-- Three and a half places below 2 ^ 1024: what is not greater survives the three roundings. -/
def amplest : ℚ := (2 ^ 53 - 7 / 2) * 2 ^ (971 : Int)

/-- Two roundings do not carry it past the greatest number. -/
theorem amplest_mul_lt :
    amplest * (1 + 1 / 2 ^ 53) ^ 2 < (2 ^ 53 - 1 / 2) * 2 ^ (971 : Int) := by
  have hpos : (0 : ℚ) < 2 ^ (971 : Int) := zpow_pos two_pos _
  rw [amplest, mul_right_comm]
  exact mul_lt_mul_of_pos_right (by norm_num) hpos

theorem amplest_lt : amplest < 10 ^ 309 := by
  have hpos : (0 : ℚ) < 2 ^ (971 : Int) := zpow_pos two_pos _
  have hcast : ((2 ^ 53 * 2 ^ 971 : Nat) : ℚ) < (10 ^ 309 : Nat) :=
    Nat.cast_lt.2 (by decide +kernel)
  rw [Nat.cast_mul, Nat.cast_pow, Nat.cast_pow, Nat.cast_pow] at hcast
  refine lt_trans ?_ hcast
  exact mul_lt_mul_of_pos_right (by norm_num) hpos

theorem binary64_width : 0 < binary64.width := by decide

theorem binary64_least_le_greatest : binary64.least ≤ binary64.greatest := by decide

/-- Half a place past the greatest number, as a natural number. -/
theorem half_past_greatest (k : Nat) :
    (((2 ^ 54 - 1) * 2 ^ k : Nat) : ℚ) = (2 ^ 53 - 1 / 2) * 2 ^ ((k + 1 : Nat) : Int) := by
  rw [zpow_natCast, pow_succ]
  push_cast [Nat.cast_sub (show 1 ≤ 2 ^ 54 by decide)]
  ring

theorem cast_lt_greatest {n : Nat} (h : n < (2 ^ 54 - 1) * 2 ^ 970) :
    (n : ℚ) < (2 ^ 53 - 1 / 2) * 2 ^ (971 : Int) := by
  have hcast : (n : ℚ) < (((2 ^ 54 - 1) * 2 ^ 970 : Nat) : ℚ) := Nat.cast_lt.2 h
  rw [half_past_greatest 970] at hcast
  exact hcast

theorem half_least_le : (2 : ℚ) ^ (binary64.least - 1) ≤ 1 / 2 ^ 53 := by
  have h : (2 : ℚ) ^ (binary64.least - 1) ≤ 2 ^ (-53 : Int) :=
    zpow_le_zpow_right₀ one_le_two (by decide)
  refine le_trans h (le_of_eq ?_)
  norm_num

/-- What is rounded from one or more is off by one part in 2 ^ 53. -/
theorem relative_bounds {num den : Nat} (hd : den ≠ 0) (hone : 1 ≤ (num : ℚ) / den)
    {x : Magnitude} (h : binary64.round num den = some x) :
    x.value ≤ num / den * (1 + 1 / 2 ^ 53) ∧ num / den * (1 - 1 / 2 ^ 53) ≤ x.value := by
  obtain ⟨hle, hge⟩ := Format.value_bounds_of_round binary64_width hd h
  have hmax : max ((num : ℚ) / den / 2 ^ binary64.width) (2 ^ (binary64.least - 1)) =
      (num : ℚ) / den / 2 ^ 53 := by
    refine max_eq_left (le_trans half_least_le ?_)
    show (1 : ℚ) / 2 ^ 53 ≤ num / den / 2 ^ 53
    gcongr
  rw [hmax] at hle hge
  constructor <;> linarith

theorem exists_round64 {num den : Nat} (hd : den ≠ 0)
    (h : (num : ℚ) / den < (2 ^ 53 - 1 / 2) * 2 ^ (971 : Int)) :
    ∃ x, binary64.round num den = some x :=
  Format.exists_round binary64_width binary64_least_le_greatest hd h

/-- Every power of ten that is applied at once is a number, next to the power itself. -/
theorem powerOfTen_spec {n : Nat} (hn : n ≤ 308) :
    ∃ p, powerOfTen n = some p ∧ p.value ≤ 10 ^ n * (1 + 1 / 2 ^ 53) ∧
      (10 : ℚ) ^ n * (1 - 1 / 2 ^ 53) ≤ p.value := by
  have hquotient : ((Nat.pow 10 n : Nat) : ℚ) / (1 : Nat) = 10 ^ n := by simp
  have hpow : 10 ^ n < (2 ^ 54 - 1) * 2 ^ 970 :=
    lt_of_le_of_lt (Nat.pow_le_pow_right (by decide) hn) (by decide +kernel)
  have hlt : ((Nat.pow 10 n : Nat) : ℚ) / (1 : Nat) < (2 ^ 53 - 1 / 2) * 2 ^ (971 : Int) := by
    rw [Nat.cast_one, div_one]
    exact cast_lt_greatest hpow
  obtain ⟨p, hp⟩ := exists_round64 one_ne_zero hlt
  have hone : (1 : ℚ) ≤ ((Nat.pow 10 n : Nat) : ℚ) / (1 : Nat) := by
    rw [hquotient]
    exact one_le_pow₀ (by norm_num)
  have hbounds := relative_bounds one_ne_zero hone hp
  rw [hquotient] at hbounds
  exact ⟨p, hp, hbounds⟩

theorem value_pos_parts {p : Magnitude} (h : 0 < p.value) : p.ratio.1 ≠ 0 := by
  intro hzero
  have hvalue := p.ratio_value.2
  rw [hzero] at hvalue
  simp only [Nat.cast_zero, zero_div] at hvalue
  exact absurd hvalue h.ne

theorem exists_mul {x p : Magnitude} (h : x.value * p.value < (2 ^ 53 - 1 / 2) * 2 ^ (971 : Int)) :
    ∃ y, binary64.mul x p = some y := by
  obtain ⟨hx, hxv⟩ := x.ratio_value
  obtain ⟨hp, hpv⟩ := p.ratio_value
  refine exists_round64 (Nat.mul_pos hx hp).ne' ?_
  rw [Nat.cast_mul, Nat.cast_mul, ← div_mul_div_comm, hxv, hpv]
  exact h

/-- A quotient by a number of at least a half is rounded, to at most its double and a bit. -/
theorem exists_div {x p : Magnitude} (hp : 0 < p.value) {bound : ℚ}
    (hx : x.value / p.value ≤ bound) (hbound : bound ≤ 2 ^ 100) :
    ∃ y, binary64.div x p = some y ∧ y.value ≤ 2 * bound + 1 := by
  obtain ⟨hxd, hxv⟩ := x.ratio_value
  have hpv := p.ratio_value.2
  have hden : x.ratio.2 * p.ratio.1 ≠ 0 := Nat.mul_ne_zero hxd.ne' (value_pos_parts hp)
  have hquotient : ((x.ratio.1 * p.ratio.2 : Nat) : ℚ) / (x.ratio.2 * p.ratio.1 : Nat) =
      x.value / p.value := by
    push_cast
    rw [← hxv, ← hpv, div_div_div_eq]
  have hlt : ((x.ratio.1 * p.ratio.2 : Nat) : ℚ) / (x.ratio.2 * p.ratio.1 : Nat) <
      (2 ^ 53 - 1 / 2) * 2 ^ (971 : Int) := by
    rw [hquotient]
    refine lt_of_le_of_lt (le_trans hx hbound) ?_
    rw [← Nat.cast_ofNat (n := 2), ← Nat.cast_pow]
    exact cast_lt_greatest (by decide +kernel)
  obtain ⟨y, hy⟩ := exists_round64 hden hlt
  refine ⟨y, hy, ?_⟩
  have hle := (Format.value_bounds_of_round binary64_width hden hy).1
  rw [hquotient] at hle
  have hnonneg : 0 ≤ x.value / p.value := div_nonneg x.value_nonneg hp.le
  have hmax : max (x.value / p.value / 2 ^ binary64.width) (2 ^ (binary64.least - 1)) ≤
      x.value / p.value + 1 := by
    refine max_le ?_ (le_trans half_least_le ?_)
    · refine le_trans (div_le_self hnonneg (one_le_pow₀ one_le_two)) ?_
      linarith
    · refine le_trans (b := 1) (by norm_num) ?_
      linarith
  linarith

/-- An exponent below zero is applied whatever it is. -/
theorem exists_scaleByTen_of_neg (steps : Nat) {x : Magnitude} {exponent : Int}
    (he : exponent < 0) (hx : x.value ≤ 2 ^ 80) : ∃ y, scaleByTen steps x exponent = some y := by
  induction steps generalizing x exponent with
  | zero => exact ⟨x, rfl⟩
  | succ steps ih =>
    rw [scaleByTen]
    split
    · next hsmall =>
      obtain ⟨p, hp, -, hge⟩ := powerOfTen_spec hsmall
      have hone : (1 : ℚ) ≤ 10 ^ exponent.natAbs := one_le_pow₀ (by norm_num)
      have hhalf : 1 / 2 ≤ p.value := by
        refine le_trans ?_ hge
        rw [← one_mul (1 / 2 : ℚ)]
        exact mul_le_mul hone (by norm_num) (by norm_num) (by positivity)
      have hquotient : x.value / p.value ≤ 2 ^ 81 := by
        rw [div_le_iff₀ (by linarith)]
        calc x.value ≤ 2 ^ 81 * (1 / 2) := le_trans hx (by norm_num)
          _ ≤ 2 ^ 81 * p.value := by gcongr
      obtain ⟨y, hy, -⟩ := exists_div (by linarith) hquotient (by norm_num)
      refine ⟨y, ?_⟩
      rw [hp, Option.bind_some, if_neg (by omega), hy]
    · split
      · exact ⟨x, rfl⟩
      · rw [if_neg (by omega)]
        obtain ⟨p, hp, -, hge⟩ := powerOfTen_spec (le_refl 308)
        have hfour : 4 ≤ p.value := by
          have hpow : (10 : ℚ) ^ 1 ≤ 10 ^ 308 := pow_le_pow_right₀ (by norm_num) (by decide)
          refine le_trans (b := 10 ^ 1 * (1 - 1 / 2 ^ 53)) (by norm_num) (le_trans ?_ hge)
          exact mul_le_mul_of_nonneg_right hpow (by norm_num)
        have hpos : 0 < p.value := lt_of_lt_of_le four_pos hfour
        have hquotient : x.value / p.value ≤ 2 ^ 78 := by
          rw [div_le_iff₀ hpos]
          calc x.value ≤ 2 ^ 78 * 4 := le_trans hx (by norm_num)
            _ ≤ 2 ^ 78 * p.value := by gcongr
        obtain ⟨y, hy, hle⟩ := exists_div hpos hquotient (by norm_num)
        have hnext : y.value ≤ 2 ^ 80 := le_trans hle (by norm_num)
        obtain ⟨z, hz⟩ := @ih y (exponent + 308) (by omega) hnext
        exact ⟨z, by rw [hp, Option.bind_some, hy, Option.bind_some, hz]⟩

/-- Digits times a power of ten that do not go past `amplest` are a number. -/
theorem exists_fromParts {digits : Nat} (hdigits : digits ≤ natural64Max) {exponent : Int}
    (h : (digits : ℚ) * 10 ^ exponent ≤ amplest) : ∃ x, fromParts digits exponent = some x := by
  have hquotient : (digits : ℚ) / (1 : Nat) = digits := by simp
  have hdigits64 : (digits : ℚ) ≤ 2 ^ 64 := by
    have : digits ≤ 2 ^ 64 := le_trans hdigits (by decide)
    exact_mod_cast this
  have hlt : (digits : ℚ) / (1 : Nat) < (2 ^ 53 - 1 / 2) * 2 ^ (971 : Int) := by
    rw [hquotient]
    exact cast_lt_greatest (lt_of_le_of_lt hdigits (by decide +kernel))
  obtain ⟨x, hx⟩ := exists_round64 one_ne_zero hlt
  have hvalue : x.value ≤ digits * (1 + 1 / 2 ^ 53) := by
    rcases Nat.eq_zero_or_pos digits with hzero | hpos
    · subst hzero
      rw [Format.round, if_pos rfl] at hx
      cases hx
      simp [Magnitude.value, Magnitude.zero]
    · have hone : (1 : ℚ) ≤ (digits : ℚ) / (1 : Nat) := by
        rw [hquotient]
        exact_mod_cast hpos
      have hle := (relative_bounds one_ne_zero hone hx).1
      rwa [hquotient] at hle
  rw [fromParts, hx, Option.bind_some]
  rcases Int.lt_or_le exponent 0 with hneg | hnonneg
  · refine exists_scaleByTen_of_neg 4 hneg (le_trans hvalue ?_)
    calc (digits : ℚ) * (1 + 1 / 2 ^ 53) ≤ 2 ^ 64 * (1 + 1 / 2 ^ 53) := by gcongr
      _ ≤ 2 ^ 80 := by norm_num
  · obtain ⟨n, rfl⟩ := Int.eq_ofNat_of_zero_le hnonneg
    rw [zpow_natCast] at h
    rw [scaleByTen]
    split
    · next hsmall =>
      obtain ⟨p, hp, hple, -⟩ := powerOfTen_spec hsmall
      simp only [Int.natAbs_natCast] at hp hple hsmall
      have hproduct : x.value * p.value < (2 ^ 53 - 1 / 2) * 2 ^ (971 : Int) := by
        calc x.value * p.value
            ≤ (digits * (1 + 1 / 2 ^ 53)) * (10 ^ n * (1 + 1 / 2 ^ 53)) :=
              mul_le_mul hvalue hple p.value_nonneg (by positivity)
          _ = digits * 10 ^ n * (1 + 1 / 2 ^ 53) ^ 2 := by ring
          _ ≤ amplest * (1 + 1 / 2 ^ 53) ^ 2 := by gcongr
          _ < (2 ^ 53 - 1 / 2) * 2 ^ (971 : Int) := amplest_mul_lt
      obtain ⟨y, hy⟩ := exists_mul hproduct
      exact ⟨y, by rw [Int.natAbs_natCast, hp, Option.bind_some, hy]⟩
    · next hlarge =>
      simp only [Int.natAbs_natCast, not_le] at hlarge
      -- no digits but zero allow an exponent past the greatest power
      have hzero : digits = 0 := by
        by_contra hne
        have hone : (1 : ℚ) ≤ digits := by exact_mod_cast Nat.pos_of_ne_zero hne
        have hpow : (10 : ℚ) ^ 309 ≤ 10 ^ n := pow_le_pow_right₀ (by norm_num) hlarge
        have hbig : (10 : ℚ) ^ 309 ≤ amplest := by
          refine le_trans hpow (le_trans ?_ h)
          exact le_mul_of_one_le_left (by positivity) hone
        exact absurd amplest_lt (not_lt.2 hbig)
      subst hzero
      rw [Format.round, if_pos rfl] at hx
      cases hx
      exact ⟨_, if_pos rfl⟩

end PromptRunner.Json
