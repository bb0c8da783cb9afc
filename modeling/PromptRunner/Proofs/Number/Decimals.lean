import Mathlib.Algebra.Order.Floor.Ring
import PromptRunner.Number.Shortest
import PromptRunner.Proofs.Number.Rounding

/-!
# A shortest numeral stays in its interval

The numeral that is written for a number was taken from the interval of the reals that round to the
number, or is the number with every digit; either way it is at most half a place above. Stripping
zeros changes the numeral and not what it stands for. That is all that reading it back needs.
-/

namespace PromptRunner.Number

/-- The number that a numeral stands for. -/
def Decimal.value (d : Decimal) : ℚ := d.digits * 10 ^ d.exponent

theorem Decimal.strip_value (n : Nat) (d : Decimal) : (d.strip n).value = d.value := by
  induction n generalizing d with
  | zero => rfl
  | succ n ih =>
    rw [Decimal.strip]
    split
    · next h =>
      rw [ih, Decimal.value, Decimal.value, zpow_add₀ (by norm_num), zpow_one]
      have hten : d.digits = d.digits / 10 * 10 := by omega
      have hcast : (d.digits : ℚ) = (d.digits / 10 : Nat) * 10 := by exact_mod_cast hten
      rw [hcast]
      ring
    · rfl

theorem Magnitude.exact_value (x : Magnitude) : x.exact.value = x.value := by
  unfold Magnitude.exact Decimal.value Magnitude.value
  split
  · next h =>
    obtain ⟨k, hk⟩ := Int.eq_ofNat_of_zero_le h
    simp [hk]
  · next h =>
    obtain ⟨k, hk⟩ := Int.eq_ofNat_of_zero_le (show 0 ≤ -x.exponent by omega)
    have hexp : x.exponent = -(k : Int) := by omega
    have htwo : (10 : ℚ) ^ (-(k : Int)) = 2 ^ (-(k : Int)) * 5 ^ (-(k : Int)) := by
      rw [← mul_zpow]
      norm_num
    simp only [hexp, neg_neg, Int.toNat_natCast, Nat.pow_eq, Nat.cast_mul, Nat.cast_pow,
      Nat.cast_ofNat, htwo]
    rw [zpow_neg 5, zpow_natCast]
    field_simp

namespace Span

theorem units_value (s : Span) (grid : Int) :
    0 < (s.units grid).2 ∧
      ((s.units grid).1 : ℚ) / (s.units grid).2 = 2 ^ s.exponent / 10 ^ grid := by
  have hsplit : ∀ (b : ℚ) (e : Int), b ≠ 0 → b ^ e.toNat = b ^ e * b ^ (-e).toNat := by
    intro b e hb
    rw [← zpow_natCast, ← zpow_natCast, ← zpow_add₀ hb]
    congr 1
    omega
  have h2 := hsplit 2 s.exponent (by norm_num)
  have h10 := hsplit 10 grid (by norm_num)
  refine ⟨Nat.mul_pos (Nat.pow_pos (by norm_num)) (Nat.pow_pos (by norm_num)), ?_⟩
  simp only [units, Nat.pow_eq, Nat.cast_mul, Nat.cast_pow, Nat.cast_ofNat, h2, h10]
  field_simp

theorem le_high_of_holds {s : Span} {grid : Int} {point : Nat} (h : s.holds grid point = true) :
    (point : ℚ) * 10 ^ grid ≤ s.high * 2 ^ s.exponent := by
  obtain ⟨hpos, hvalue⟩ := s.units_value grid
  have hden : (0 : ℚ) < (s.units grid).2 := by exact_mod_cast hpos
  have hle : point * (s.units grid).2 ≤ s.high * (s.units grid).1 := by
    simp only [holds] at h
    split at h
    · simp only [Bool.and_eq_true, decide_eq_true_eq] at h
      exact h.2
    · simp only [Bool.and_eq_true, decide_eq_true_eq] at h
      exact h.2.le
  have hcast : (point : ℚ) * (s.units grid).2 ≤ s.high * (s.units grid).1 := by exact_mod_cast hle
  rw [← le_div_iff₀ hden, mul_div_assoc, hvalue, ← mul_div_assoc,
    le_div_iff₀ (by positivity)] at hcast
  exact hcast

theorem le_high_of_search {s : Span} {top : Int} {d : Decimal} :
    ∀ {tries digits : Nat}, s.search top tries digits = some d →
      d.value ≤ s.high * 2 ^ s.exponent := by
  intro tries
  induction tries with
  | zero =>
    intro digits h
    exact absurd h (by simp [search])
  | succ tries ih =>
    intro digits h
    rw [search] at h
    split at h
    · next hit =>
      cases h
      exact le_high_of_holds (holds_of_hit? hit)
    · exact ih h

end Span

/-- The numeral of a number is at most half a place above it. -/
theorem shortest_value_le (f : Format) (x : Magnitude) :
    (shortest f x).value ≤ (x.mantissa + 1 / 2) * 2 ^ x.exponent := by
  rw [shortest, Decimal.strip_value]
  cases hs : (Span.around f x).search (decade x.ratio.1 x.ratio.2) 17 1 with
  | some d =>
    refine le_trans (Span.le_high_of_search hs) (le_of_eq ?_)
    simp only [Span.around, zpow_sub₀ (two_ne_zero (α := ℚ))]
    push_cast
    ring
  | none =>
    rw [Option.getD_none, Magnitude.exact_value, Magnitude.value]
    gcongr
    norm_num

end PromptRunner.Number
