import PromptRunner.Json.Record
import PromptRunner.Json.Writer
import PromptRunner.Proofs.Json.Powers
import PromptRunner.Proofs.Number.Decimals

/-!
# Written numbers are read

A number is written as a numeral of one of five forms, with its point in place or with an exponent.
Three things have to meet for it to be read again. The scan finds exactly the digits that were
written and stops behind them. The digits that are read make a number no greater than what was
written, since leaving digits out only makes it smaller. And what was written is at most half a
place above the number, so that the arithmetic of reading stays below the greatest number.

The last holds for all numbers but the three greatest, for which reading is computed.
-/

namespace PromptRunner.Json

open PromptRunner.Number

/-! ## Digits -/

theorem isDigit_eq (c : Char) : isDigit c = c.isDigit := rfl

theorem isSpace_of_isDigit {c : Char} (h : isDigit c = true) : isSpace c = false := by
  by_contra hspace
  simp only [isSpace, Bool.not_eq_false, Bool.or_eq_true, decide_eq_true_eq] at hspace
  rcases hspace with ((rfl | rfl) | rfl) | rfl <;> exact absurd h (by decide)

theorem isDigit_of_mem_toDigits {n : Nat} {c : Char} (h : c ∈ Nat.toDigits 10 n) :
    isDigit c = true := by
  rw [isDigit_eq]
  exact Nat.isDigit_of_mem_toDigits (by decide) (by decide) h

theorem toDigits_head {n : Nat} (h : n ≠ 0) : (Nat.toDigits 10 n).head? ≠ some '0' := by
  induction n using Nat.strongRecOn with
  | ind n ih =>
    rw [Nat.toDigits_eq_if (by decide)]
    split
    · next hsmall =>
      have hcheck : ∀ k < 10, k ≠ 0 → [k.digitChar].head? ≠ some '0' := by decide
      exact hcheck n hsmall h
    · next hlarge =>
      rw [List.head?_append_of_ne_nil _ Nat.toDigits_ne_nil]
      exact ih (n / 10) (by omega) (by omega)

theorem spanDigits_append {ds rest : List Char} (hds : ∀ c ∈ ds, isDigit c = true)
    (hrest : ∀ c, rest.head? = some c → isDigit c = false) :
    spanDigits (ds ++ rest) = (ds, rest) := by
  have htake : rest.takeWhile isDigit = [] := by
    cases rest with
    | nil => rfl
    | cons c r => simp [hrest c rfl]
  have hdrop : rest.dropWhile isDigit = rest := by
    cases rest with
    | nil => rfl
    | cons c r => simp [hrest c rfl]
  rw [spanDigits, List.takeWhile_append_of_pos hds, List.dropWhile_append_of_pos hds, htake, hdrop,
    List.append_nil]

/-- Digits are added up to some place, and the number so far is within the bound. -/
theorem accumulate_spec (bound : Nat) (ds : List Char) {n : Nat} (h : n ≤ bound) :
    ∃ k ≤ ds.length, accumulate bound n ds = (Nat.ofDigitChars 10 (ds.take k) n, ds.drop k) ∧
      Nat.ofDigitChars 10 (ds.take k) n ≤ bound := by
  induction ds generalizing n with
  | nil => exact ⟨0, le_refl _, rfl, h⟩
  | cons d ds ih =>
    rw [accumulate]
    split
    · next hnext =>
      obtain ⟨k, hk, heq, hle⟩ := ih hnext
      exact ⟨k + 1, Nat.succ_le_succ hk, heq, hle⟩
    · exact ⟨0, Nat.zero_le _, rfl, h⟩

theorem le_ofDigitChars (ds : List Char) (n : Nat) : n ≤ Nat.ofDigitChars 10 ds n := by
  rw [Nat.ofDigitChars_eq_ofDigitChars_zero]
  exact le_trans (Nat.le_mul_of_pos_left n (Nat.pow_pos (by decide))) (Nat.le_add_right _ _)

theorem accumulate_eq_of_le {bound : Nat} {ds : List Char} {n : Nat}
    (h : Nat.ofDigitChars 10 ds n ≤ bound) :
    accumulate bound n ds = (Nat.ofDigitChars 10 ds n, []) := by
  induction ds generalizing n with
  | nil => rfl
  | cons d ds ih =>
    have hnext : 10 * n + digitValue d ≤ bound := le_trans (le_ofDigitChars ds _) h
    rw [accumulate]
    exact (if_pos hnext).trans (ih h)

theorem ofDigitChars_lt {ds : List Char} (h : ∀ c ∈ ds, isDigit c = true) (n : Nat) :
    Nat.ofDigitChars 10 ds n < (n + 1) * 10 ^ ds.length := by
  induction ds generalizing n with
  | nil => simp
  | cons d ds ih =>
    have hd : digitValue d ≤ 9 := by
      have := h d List.mem_cons_self
      simp only [isDigit, Bool.and_eq_true, decide_eq_true_eq] at this
      have hle : d.toNat ≤ 0x39 := this.2
      unfold digitValue
      omega
    have hnext := ih (fun c hc => h c (List.mem_cons_of_mem _ hc)) (10 * n + digitValue d)
    refine lt_of_lt_of_le hnext ?_
    calc (10 * n + digitValue d + 1) * 10 ^ ds.length ≤ (n + 1) * 10 * 10 ^ ds.length := by
          gcongr; omega
      _ = (n + 1) * 10 ^ (d :: ds).length := by rw [List.length_cons, pow_succ]; ring

/-! ## The scan -/

/-- The exponent of a numeral, as it is written. -/
def exponentText : Option (Bool × List Char) → List Char
  | none => []
  | some (negative, ds) => 'e' :: (if negative then '-' else '+') :: ds

/-- A numeral as it is written. -/
def Numeral.written (n : Numeral) : List Char :=
  n.whole ++ (if n.fraction = [] then [] else '.' :: n.fraction) ++ exponentText n.exponent

/-- A numeral that can be written: digits where digits stand, no leading zero, and an exponent with
at least one digit. -/
structure Numeral.Plain (n : Numeral) : Prop where
  whole : ∀ c ∈ n.whole, isDigit c = true
  lead : n.whole = ['0'] ∨ n.whole ≠ [] ∧ n.whole.head? ≠ some '0'
  fraction : ∀ c ∈ n.fraction, isDigit c = true
  exponent : ∀ negative ds, n.exponent = some (negative, ds) →
    ds ≠ [] ∧ ∀ c ∈ ds, isDigit c = true

/-- A text that does not go on with a numeral. -/
def Leaves (rest : List Char) : Prop :=
  ∀ c, rest.head? = some c → isDigit c = false ∧ c ≠ '.' ∧ c ≠ 'e' ∧ c ≠ 'E'

theorem scanWhole_append {ds rest : List Char} (hds : ∀ c ∈ ds, isDigit c = true)
    (hlead : ds = ['0'] ∨ ds ≠ [] ∧ ds.head? ≠ some '0')
    (hrest : ∀ c, rest.head? = some c → isDigit c = false) (short : Problem) :
    scanWhole short (ds ++ rest) = .ok (ds, rest) := by
  rcases hlead with rfl | ⟨hne, hzero⟩
  · cases rest with
    | nil => rfl
    | cons c r =>
      have hc := hrest c rfl
      simp [scanWhole, hc]
  · obtain ⟨d, ds', rfl⟩ := List.exists_cons_of_ne_nil hne
    have hd : d ≠ '0' := fun h => hzero (by rw [h]; rfl)
    have hspan := spanDigits_append hds hrest
    rw [List.cons_append] at hspan ⊢
    simp only [scanWhole, if_neg hd, hds d List.mem_cons_self, if_true, hspan]

theorem scanFraction_append {ds rest : List Char} (hds : ∀ c ∈ ds, isDigit c = true)
    (hrest : ∀ c, rest.head? = some c → isDigit c = false ∧ c ≠ '.') (short : Problem) :
    scanFraction short ((if ds = [] then [] else '.' :: ds) ++ rest) = .ok (ds, rest) := by
  split
  · next h =>
    subst h
    cases rest with
    | nil => rfl
    | cons c r =>
      have hc := (hrest c rfl).2
      rw [List.nil_append, scanFraction]
      intro _ heq
      exact hc (List.cons.inj heq).1
  · next h =>
    obtain ⟨d, ds', rfl⟩ := List.exists_cons_of_ne_nil h
    have hspan := spanDigits_append hds fun c hc => (hrest c hc).1
    rw [List.cons_append, scanFraction, hspan]

theorem scanExponent_append {exponent : Option (Bool × List Char)} {rest : List Char}
    (hexp : ∀ negative ds, exponent = some (negative, ds) →
      ds ≠ [] ∧ ∀ c ∈ ds, isDigit c = true)
    (hrest : Leaves rest) (short : Problem) :
    scanExponent short (exponentText exponent ++ rest) = .ok (exponent, rest) := by
  match exponent with
  | none =>
    cases rest with
    | nil => rfl
    | cons c r =>
      obtain ⟨-, -, hlower, hupper⟩ := hrest c rfl
      simp [exponentText, scanExponent, hlower, hupper]
  | some (negative, ds) =>
    obtain ⟨hne, hds⟩ := hexp negative ds rfl
    obtain ⟨d, ds', rfl⟩ := List.exists_cons_of_ne_nil hne
    have hspan := spanDigits_append hds fun c hc => (hrest c hc).1
    cases negative with
    | false =>
      show scanExponent short ('e' :: '+' :: ((d :: ds') ++ rest)) = _
      simp only [scanExponent, decide_true, Bool.true_or, if_true, hspan]
    | true =>
      show scanExponent short ('e' :: '-' :: ((d :: ds') ++ rest)) = _
      simp only [scanExponent, decide_true, Bool.true_or, if_true, hspan]

theorem scanNumeral_written {n : Numeral} (hn : n.Plain) {rest : List Char} (hrest : Leaves rest)
    (short : Problem) : scanNumeral short (n.written ++ rest) = .ok (n, rest) := by
  have htail : ∀ c, (exponentText n.exponent ++ rest).head? = some c →
      isDigit c = false ∧ c ≠ '.' := by
    intro c hc
    match h : n.exponent with
    | none =>
      rw [h] at hc
      exact ⟨(hrest c hc).1, (hrest c hc).2.1⟩
    | some (negative, ds) =>
      rw [h] at hc
      cases hc
      decide
  have hmiddle : ∀ c, ((if n.fraction = [] then [] else '.' :: n.fraction) ++
      (exponentText n.exponent ++ rest)).head? = some c → isDigit c = false := by
    intro c hc
    split at hc
    · exact (htail c hc).1
    · cases hc
      rfl
  rw [Numeral.written, List.append_assoc, List.append_assoc, scanNumeral,
    scanWhole_append hn.whole hn.lead hmiddle]
  simp only
  rw [scanFraction_append hn.fraction htail]
  simp only
  rw [scanExponent_append hn.exponent hrest]

/-! ## The value -/

/-- The power of ten that a numeral is multiplied by. -/
def Numeral.power (n : Numeral) : Int :=
  match n.exponent with
  | none => 0
  | some (negative, ds) =>
    if negative then -(Nat.ofDigitChars 10 ds 0 : Int) else Nat.ofDigitChars 10 ds 0

/-- The number that a numeral writes. -/
def Numeral.amount (n : Numeral) : ℚ :=
  Nat.ofDigitChars 10 (n.whole ++ n.fraction) 0 * 10 ^ (n.power - n.fraction.length)

/-- Digits that are left out at the end make a number smaller. -/
theorem ofDigitChars_append_ge (ds rest : List Char) :
    Nat.ofDigitChars 10 ds 0 * 10 ^ rest.length ≤ Nat.ofDigitChars 10 (ds ++ rest) 0 := by
  rw [Nat.ofDigitChars_append, @Nat.ofDigitChars_eq_ofDigitChars_zero rest _, mul_comm]
  exact Nat.le_add_right _ _

/-- The digits that are read stand for no more than those that are written. -/
theorem significand_spec {n : Numeral} (hwhole : ∀ c ∈ n.whole, isDigit c = true)
    (hlength : n.whole.length ≤ 19) :
    n.significand.1 ≤ natural64Max ∧
      ∀ power : Int, (n.significand.1 : ℚ) * 10 ^ (n.significand.2 + power) ≤
        Nat.ofDigitChars 10 (n.whole ++ n.fraction) 0 * 10 ^ (power - n.fraction.length) := by
  have hfits : Nat.ofDigitChars 10 n.whole 0 ≤ natural64Max := by
    have hlt := ofDigitChars_lt hwhole 0
    rw [Nat.zero_add, Nat.one_mul] at hlt
    have hpow : 10 ^ n.whole.length ≤ 10 ^ 19 := Nat.pow_le_pow_right (by decide) hlength
    exact le_trans hlt.le (le_trans hpow (by decide))
  obtain ⟨k, hk, hread, hle⟩ := accumulate_spec natural64Max n.fraction hfits
  rw [← Nat.ofDigitChars_append] at hread hle
  have hsignificand : n.significand =
      (Nat.ofDigitChars 10 (n.whole ++ n.fraction.take k) 0, -(k : Int)) := by
    simp only [Numeral.significand, accumulate_eq_of_le hfits, hread]
    congr 1
    rw [List.length_nil, List.length_drop]
    omega
  rw [hsignificand]
  refine ⟨hle, fun power => ?_⟩
  have hge := ofDigitChars_append_ge (n.whole ++ n.fraction.take k) (n.fraction.drop k)
  rw [List.append_assoc, List.take_append_drop, List.length_drop] at hge
  have hcast : (Nat.ofDigitChars 10 (n.whole ++ n.fraction.take k) 0 : ℚ) *
      10 ^ (n.fraction.length - k) ≤ Nat.ofDigitChars 10 (n.whole ++ n.fraction) 0 := by
    exact_mod_cast hge
  have hsplit : (10 : ℚ) ^ (-(k : Int) + power) =
      10 ^ (n.fraction.length - k) * 10 ^ (power - n.fraction.length) := by
    rw [← zpow_natCast, ← zpow_add₀ (by norm_num)]
    congr 1
    omega
  rw [hsplit, ← mul_assoc]
  exact mul_le_mul_of_nonneg_right hcast (by positivity)

/-- A numeral with a point or an exponent that is not past `amplest` has a value. -/
theorem Numeral.exists_value {n : Numeral} (hwhole : ∀ c ∈ n.whole, isDigit c = true)
    (hlength : n.whole.length ≤ 19) (hreal : n.fraction ≠ [] ∨ n.exponent ≠ none)
    (hsmall : n.power ≤ exponentMax) (h : n.amount ≤ amplest) (negative : Bool) :
    ∃ x, n.value negative = .ok (.real (.finite negative x)) := by
  obtain ⟨hdigits, hle⟩ := significand_spec hwhole hlength
  have hparts : ∃ x, fromParts n.significand.1 (n.significand.2 + n.power) = some x :=
    exists_fromParts hdigits (le_trans (hle n.power) h)
  obtain ⟨x, hx⟩ := hparts
  unfold Numeral.value
  match he : n.exponent with
  | none =>
    obtain ⟨d, ds, hf⟩ := List.exists_cons_of_ne_nil (hreal.resolve_right (by simp [he]))
    rw [Numeral.power, he, add_zero] at hx
    simp only [hf, hx]
    exact ⟨x, rfl⟩
  | some (below, ds) =>
    rw [Numeral.power, he] at hx hsmall
    simp only at hx hsmall ⊢
    split
    · next e hread =>
      obtain ⟨k, hk, hspec, -⟩ := accumulate_spec exponentMax ds (Nat.zero_le exponentMax)
      rw [hspec, Prod.mk.injEq, List.drop_eq_nil_iff] at hread
      obtain ⟨rfl, hlen⟩ := hread
      rw [List.take_of_length_le hlen]
      refine ⟨x, ?_⟩
      cases below with
      | false =>
        simp only [Bool.false_eq_true, if_false] at hx ⊢
        rw [hx]
      | true =>
        simp only [if_true] at hx ⊢
        rw [sub_eq_add_neg, hx]
    · next hread =>
      cases below with
      | false =>
        -- an exponent that is counted leaves no digit over
        simp only [Bool.false_eq_true, if_false, Nat.cast_le] at hsmall
        rw [accumulate_eq_of_le hsmall] at hread
        exact absurd (congrArg Prod.snd hread) (by simp)
      | true => exact ⟨.zero binary64, if_pos (by simp)⟩

/-! ## What is written -/

/-- Where the point of a number stands, counted from behind its first digit. -/
def leading (d : Decimal) : Int := d.exponent + (Nat.toDigits 10 d.digits).length - 1

/-- The numeral that a layout writes. -/
def laidOut (layout : Layout) (d : Decimal) : Numeral :=
  let ds := Nat.toDigits 10 d.digits
  if d.digits = 0 then ⟨['0'], ['0'], none⟩
  else if layout.positionalFrom ≤ leading d ∧ leading d < layout.exponentialFrom then
    if leading d < 0 then ⟨['0'], List.replicate (-leading d - 1).toNat '0' ++ ds, none⟩
    else if ds.length ≤ (leading d + 1).toNat then
      ⟨ds ++ List.replicate ((leading d + 1).toNat - ds.length) '0', ['0'], none⟩
    else ⟨ds.take (leading d + 1).toNat, ds.drop (leading d + 1).toNat, none⟩
  else
    ⟨ds.take 1, ds.drop 1,
      some (decide (leading d < 0), Nat.toDigits 10 (leading d).natAbs)⟩

theorem text_eq_written (layout : Layout) (d : Decimal) :
    layout.text d = (laidOut layout d).written := by
  have hlead : d.exponent + (Nat.toDigits 10 d.digits).length - 1 = leading d := rfl
  simp only [Layout.text, laidOut, hlead]
  split
  · rfl
  · split
    · split
      · simp [Numeral.written, exponentText, Nat.toDigits_ne_nil]
      · split
        · simp [Numeral.written, exponentText]
        · next hlonger =>
          simp [Numeral.written, exponentText, hlonger]
    · obtain ⟨c, cs, hcs⟩ :=
        List.exists_cons_of_ne_nil (Nat.toDigits_ne_nil : Nat.toDigits 10 d.digits ≠ [])
      cases cs with
      | nil => simp [Numeral.written, exponentText, hcs]
      | cons c' cs' => simp [Numeral.written, exponentText, hcs]

theorem laidOut_plain (layout : Layout) (d : Decimal) : (laidOut layout d).Plain := by
  have hds : ∀ c ∈ Nat.toDigits 10 d.digits, isDigit c = true := fun c => isDigit_of_mem_toDigits
  have hzeros : ∀ k, ∀ c ∈ List.replicate k '0', isDigit c = true := by
    intro k c hc
    rw [List.eq_of_mem_replicate hc]
    rfl
  have hzero : ∀ c ∈ ['0'], isDigit c = true := by
    intro c hc
    rw [List.mem_singleton.1 hc]
    rfl
  unfold laidOut
  simp only
  split
  · exact ⟨hzero, .inl rfl, hzero, by simp⟩
  · next hne =>
    have hhead := toDigits_head hne
    obtain ⟨c, cs, hcs⟩ :=
      List.exists_cons_of_ne_nil (Nat.toDigits_ne_nil : Nat.toDigits 10 d.digits ≠ [])
    rw [hcs] at hds hhead ⊢
    split
    · next hplace =>
      split
      · refine ⟨hzero, .inl rfl, ?_, by simp⟩
        intro c' hc'
        exact (List.mem_append.1 hc').elim (hzeros _ c') (hds c')
      · next hpos =>
        split
        · refine ⟨?_, .inr ⟨by simp, hhead⟩, hzero, by simp⟩
          intro c' hc'
          exact (List.mem_append.1 hc').elim (hds c') (hzeros _ c')
        · obtain ⟨k, hk⟩ : ∃ k, (leading d + 1).toNat = k + 1 :=
            ⟨(leading d).toNat, by omega⟩
          rw [hk]
          exact ⟨fun c' hc' => hds c' (List.mem_of_mem_take hc'), .inr ⟨by simp, hhead⟩,
            fun c' hc' => hds c' (List.mem_of_mem_drop hc'), by simp⟩
    · refine ⟨fun c' hc' => hds c' (List.mem_of_mem_take hc'), .inr ⟨by simp, hhead⟩,
        fun c' hc' => hds c' (List.mem_of_mem_drop hc'), ?_⟩
      intro negative ds heq
      cases heq
      exact ⟨Nat.toDigits_ne_nil, fun c' => isDigit_of_mem_toDigits⟩

theorem laidOut_real (layout : Layout) (d : Decimal) :
    (laidOut layout d).fraction ≠ [] ∨ (laidOut layout d).exponent ≠ none := by
  unfold laidOut
  simp only
  split
  · exact .inl (by simp)
  · split
    · split
      · exact .inl (by simp [Nat.toDigits_ne_nil])
      · split
        · exact .inl (by simp)
        · next h => exact .inl (by simp; omega)
    · exact .inr (by simp)

/-- The layout changes the place of the point and not the number. -/
theorem laidOut_amount (layout : Layout) (d : Decimal) :
    (laidOut layout d).amount = d.value := by
  have hdigits : Nat.ofDigitChars 10 (Nat.toDigits 10 d.digits) 0 = d.digits :=
    Nat.ofDigitChars_ten_toDigits
  have hlead : leading d = d.exponent + (Nat.toDigits 10 d.digits).length - 1 := rfl
  have hpos := Nat.length_toDigits_pos (b := 10) (n := d.digits)
  unfold laidOut
  simp only
  split
  · next h =>
    rw [Decimal.value, h, Numeral.amount]
    simp [Nat.ofDigitChars]
  · split
    · split
      · next hneg =>
        have hall : Nat.ofDigitChars 10 (['0'] ++ (List.replicate (-leading d - 1).toNat '0' ++
            Nat.toDigits 10 d.digits)) 0 = d.digits := by
          rw [Nat.ofDigitChars_append, Nat.ofDigitChars_append, Nat.ofDigitChars_replicate_zero]
          exact hdigits
        rw [Numeral.amount, Decimal.value, hall]
        congr 2
        simp only [Numeral.power, List.length_append, List.length_replicate]
        omega
      · next hneg =>
        split
        · next hle =>
          have hall : Nat.ofDigitChars 10 (Nat.toDigits 10 d.digits ++ List.replicate
              ((leading d + 1).toNat - (Nat.toDigits 10 d.digits).length) '0' ++ ['0']) 0 =
              d.digits * 10 ^ (d.exponent.toNat + 1) := by
            have hzeros : (leading d + 1).toNat - (Nat.toDigits 10 d.digits).length =
                d.exponent.toNat := by omega
            rw [Nat.ofDigitChars_append, Nat.ofDigitChars_append, hdigits,
              Nat.ofDigitChars_replicate_zero, Nat.ofDigitChars_cons, hzeros, pow_succ]
            show 10 * (10 ^ d.exponent.toNat * d.digits) = _
            ring
          obtain ⟨k, hk⟩ := Int.eq_ofNat_of_zero_le (show 0 ≤ d.exponent by omega)
          rw [Numeral.amount, Decimal.value, hall, hk, Int.toNat_natCast]
          have hpower : (10 : ℚ) ^ ((0 : Int) - ((['0'].length : Nat) : Int)) = 1 / 10 := by
            norm_num
          rw [Numeral.power, hpower, zpow_natCast]
          push_cast
          ring
        · next hgt =>
          rw [Numeral.amount, Decimal.value, List.take_append_drop, hdigits]
          congr 2
          simp only [Numeral.power, List.length_drop]
          omega
    · rw [Numeral.amount, Decimal.value, List.take_append_drop, hdigits]
      congr 2
      simp only [Numeral.power, List.length_drop, Nat.ofDigitChars_ten_toDigits]
      split
      · next h =>
        have := of_decide_eq_true h
        omega
      · next h =>
        have := of_decide_eq_false (Bool.eq_false_of_not_eq_true h)
        omega

/-- With the point in place there are no more digits before it than the layout has places. -/
theorem laidOut_whole_length {layout : Layout} (hlayout : layout.exponentialFrom ≤ 19)
    (d : Decimal) : (laidOut layout d).whole.length ≤ 19 := by
  have hpos := Nat.length_toDigits_pos (b := 10) (n := d.digits)
  unfold laidOut
  simp only
  split
  · decide
  · split
    · split
      · exact Nat.le_add_left 1 18
      · split
        · rw [List.length_append, List.length_replicate]
          omega
        · rw [List.length_take]
          omega
    · rw [List.length_take]
      omega

theorem pow_le_of_digits {n : Nat} (h : n ≠ 0) : 10 ^ ((Nat.toDigits 10 n).length - 1) ≤ n := by
  by_contra hlt
  rcases Nat.eq_zero_or_pos ((Nat.toDigits 10 n).length - 1) with hzero | hpos
  · rw [hzero, pow_zero] at hlt
    omega
  · have hle := (Nat.length_toDigits_le_iff (by decide) hpos).2 (not_le.1 hlt)
    omega

/-- The exponent that is written of a number that is not past `amplest` is counted. -/
theorem laidOut_power_le {layout : Layout} {d : Decimal} (h : d.value ≤ amplest) :
    (laidOut layout d).power ≤ exponentMax := by
  have hbound : d.digits ≠ 0 → leading d < 309 := by
    intro hne
    have hpos := Nat.length_toDigits_pos (b := 10) (n := d.digits)
    have hdigits : (10 : ℚ) ^ ((Nat.toDigits 10 d.digits).length - 1) ≤ d.digits := by
      exact_mod_cast pow_le_of_digits hne
    have hvalue : (10 : ℚ) ^ leading d ≤ d.value := by
      have hsplit : (10 : ℚ) ^ leading d =
          10 ^ ((Nat.toDigits 10 d.digits).length - 1) * 10 ^ d.exponent := by
        rw [← zpow_natCast, ← zpow_add₀ (by norm_num)]
        congr 1
        unfold leading
        omega
      rw [hsplit, Decimal.value]
      exact mul_le_mul_of_nonneg_right hdigits (by positivity)
    have hlt : (10 : ℚ) ^ leading d < 10 ^ (309 : Int) :=
      lt_of_le_of_lt (le_trans hvalue h) amplest_lt
    exact (zpow_lt_zpow_iff_right₀ (by norm_num)).1 hlt
  have hmax : (309 : Int) ≤ exponentMax := by decide
  unfold laidOut
  simp only
  split
  · exact Int.natCast_nonneg _
  · next hne =>
    split
    · split
      · exact Int.natCast_nonneg _
      · split <;> exact Int.natCast_nonneg _
    · have := hbound hne
      simp only [Numeral.power, Nat.ofDigitChars_ten_toDigits]
      split
      · omega
      · next hsign =>
        have := of_decide_eq_false (Bool.eq_false_of_not_eq_true hsign)
        omega

theorem exists_value_laidOut {layout : Layout} (hlayout : layout.exponentialFrom ≤ 19)
    {d : Decimal} (h : d.value ≤ amplest) (negative : Bool) :
    ∃ x, (laidOut layout d).value negative = .ok (.real (.finite negative x)) := by
  refine Numeral.exists_value (laidOut_plain _ d).whole (laidOut_whole_length hlayout d)
    (laidOut_real _ d) (laidOut_power_le h) ?_ negative
  rw [laidOut_amount]
  exact h

/-- The three greatest numbers, for which `amplest` is too low, are read as one of them. -/
theorem value_of_greatest : ∀ k ∈ [1, 2, 3], ∀ negative,
    ∃ y ∈ [(⟨2 ^ 53 - 1, 971⟩ : Magnitude), ⟨2 ^ 53 - 3, 971⟩],
      ((laidOut layout64 (shortest binary64 ⟨2 ^ 53 - k, 971⟩)).value negative).toOption =
        some (.real (.finite negative y)) := by
  decide +kernel

/-- All numbers but the three greatest are written no higher than `amplest`. -/
theorem shortest_le_amplest {x : Magnitude} (hx : x.Fits binary64)
    (h : x.exponent < 971 ∨ x.mantissa ≤ 2 ^ 53 - 4) :
    (shortest binary64 x).value ≤ amplest := by
  refine le_trans (shortest_value_le binary64 x) ?_
  have hmantissa : (x.mantissa : ℚ) + 1 ≤ 2 ^ 53 := by exact_mod_cast hx.mantissa_lt
  rcases h with hexp | hsmall
  · have hhalf : (x.mantissa : ℚ) + 1 / 2 ≤ (2 ^ 53 - 7 / 2) * 2 := by linarith
    have hpow : (2 : ℚ) ^ x.exponent ≤ 2 ^ (970 : Int) :=
      zpow_le_zpow_right₀ one_le_two (by omega)
    have htwo : (2 : ℚ) ^ (971 : Int) = 2 * 2 ^ (970 : Int) :=
      zpow_one_add₀ two_ne_zero 970
    rw [amplest, htwo, ← mul_assoc]
    exact mul_le_mul hhalf hpow (zpow_pos two_pos _).le (by norm_num)
  · have hcast : (x.mantissa : ℚ) + 1 / 2 ≤ 2 ^ 53 - 7 / 2 := by
      have hle : x.mantissa + 4 ≤ 2 ^ 53 := by omega
      have : (x.mantissa : ℚ) + 4 ≤ 2 ^ 53 := by exact_mod_cast hle
      linarith
    have hpow : (2 : ℚ) ^ x.exponent ≤ 2 ^ (971 : Int) :=
      zpow_le_zpow_right₀ one_le_two hx.le_greatest
    exact mul_le_mul hcast hpow (zpow_pos two_pos _).le (by norm_num)

/-- What is written of a finite number has a value. -/
theorem exists_value_shortest {x : Magnitude} (hx : x.Fits binary64) (negative : Bool) :
    ∃ y, (laidOut layout64 (shortest binary64 x)).value negative =
      .ok (.real (.finite negative y)) := by
  by_cases h : x.exponent < 971 ∨ x.mantissa ≤ 2 ^ 53 - 4
  · exact exists_value_laidOut (by decide) (shortest_le_amplest hx h) negative
  · rw [not_or, not_lt, not_le] at h
    have hlt : x.mantissa < 2 ^ 53 := hx.mantissa_lt
    have hexp : x.exponent = 971 := le_antisymm hx.le_greatest h.1
    obtain ⟨k, hk, hx⟩ : ∃ k ∈ [1, 2, 3], x = ⟨2 ^ 53 - k, 971⟩ := by
      refine ⟨2 ^ 53 - x.mantissa, ?_, ?_⟩
      · simp only [List.mem_cons, List.not_mem_nil, or_false]
        omega
      · rw [Nat.sub_sub_self hlt.le, ← hexp]
    obtain ⟨y, -, hvalue⟩ := value_of_greatest k hk negative
    rw [hx]
    cases hread : (laidOut layout64 (shortest binary64 ⟨2 ^ 53 - k, 971⟩)).value negative with
    | ok n =>
      rw [hread] at hvalue
      exact ⟨y, congrArg Except.ok (Option.some.inj hvalue)⟩
    | error e =>
      rw [hread] at hvalue
      exact absurd hvalue (by simp [Except.toOption])

/-! ## Reading what was written -/

/-- A value that is a number and no infinity. -/
def Finite64 : Binary → Prop
  | .finite _ x => x.Fits binary64
  | .infinite _ => False

/-- What is written of a number is a numeral, and has a value if what it is the shortest of has. -/
theorem exists_numeral_of {f : Format} {layout : Layout} (hlayout : layout.exponentialFrom ≤ 19)
    {x : Magnitude} (h : ∀ negative, ∃ y,
      (laidOut layout (shortest f x)).value negative = .ok (.real (.finite negative y))) :
    ∃ n : Numeral, n.Plain ∧
      (if x.mantissa = 0 then "0.0".toList else layout.text (shortest f x)) = n.written ∧
      ∀ negative, ∃ y, n.value negative = .ok (.real (.finite negative y)) := by
  split
  · refine ⟨laidOut layout ⟨0, 0⟩, laidOut_plain _ _, rfl, exists_value_laidOut hlayout ?_⟩
    rw [Decimal.value, Nat.cast_zero, zero_mul]
    exact mul_nonneg (by norm_num) (zpow_pos two_pos _).le
  · exact ⟨_, laidOut_plain _ _, text_eq_written _ _, h⟩

theorem exists_numeral {x : Magnitude} (hx : x.Fits binary64) :
    ∃ n : Numeral, n.Plain ∧
      (if x.mantissa = 0 then "0.0".toList else layout64.text (shortest binary64 x)) =
        n.written ∧
      ∀ negative, ∃ y, n.value negative = .ok (.real (.finite negative y)) :=
  exists_numeral_of (by decide) (exists_value_shortest hx)

theorem Numeral.Plain.exists_cons {n : Numeral} (hn : n.Plain) :
    ∃ c r, n.written = c :: r ∧ isDigit c = true := by
  have hne : n.whole ≠ [] := by
    rcases hn.lead with h | h
    · rw [h]
      exact List.cons_ne_nil _ _
    · exact h.1
  obtain ⟨c, r, hc⟩ := List.exists_cons_of_ne_nil hne
  refine ⟨c, r ++ (if n.fraction = [] then [] else '.' :: n.fraction) ++ exponentText n.exponent,
    ?_, hn.whole c (by rw [hc]; exact List.mem_cons_self)⟩
  rw [Numeral.written, hc]
  rfl

/-- A finite number that was written is read as a finite number, and nothing behind it is. -/
theorem readReal_text {x : Binary} (hx : Finite64 x) {rest : List Char} (hrest : Leaves rest)
    (wanted : String) (depth : Nat) :
    ∃ y, readReal wanted depth (' ' :: ((Number.real x).text ++ rest)) = .ok (y, rest) := by
  match x, hx with
  | .finite negative x, hx =>
    obtain ⟨n, hn, hbody, hvalue⟩ := exists_numeral hx
    obtain ⟨y, hy⟩ := hvalue negative
    have hread : readNumber negative (n.written ++ rest) =
        .ok (.real (.finite negative y), rest) := by
      simp only [readNumber, scanNumeral_written hn hrest, hy]
    have htext : (Number.real (.finite negative x)).text =
        if negative then '-' :: n.written else n.written := by
      simp only [Number.text, Binary.text?, hbody, Option.getD_some]
    refine ⟨.finite negative y, ?_⟩
    rw [readReal, htext]
    cases negative with
    | true =>
      have hany : readAnyNumber wanted (' ' :: ('-' :: n.written ++ rest)) =
          readNumber true (n.written ++ rest) := rfl
      rw [if_pos rfl, hany, hread]
      rfl
    | false =>
      obtain ⟨c, r, hc, hdigit⟩ := hn.exists_cons
      have hminus : c ≠ '-' := by
        rintro rfl
        exact absurd hdigit (by decide)
      have hany : readAnyNumber wanted (' ' :: (n.written ++ rest)) =
          readNumber false (n.written ++ rest) := by
        rw [hc, List.cons_append, readAnyNumber, skipSpace_of_space rfl,
          skipSpace_of_not_space (isSpace_of_isDigit hdigit)]
        simp only [if_neg hminus, hdigit, if_true]
      rw [if_neg Bool.false_ne_true, hany, hread]
      rfl

end PromptRunner.Json
