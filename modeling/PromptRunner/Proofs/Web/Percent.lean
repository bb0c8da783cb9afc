import PromptRunner.Proofs.Text.Bytes
import PromptRunner.Proofs.Web.Query

/-!
# What percent signs stand for

A text with percent signs stands for bytes: a percent sign with two digits for one byte, and any
other character for its own. So a text is read in steps of two kinds, and `percentDecode_induction`
is the induction over them.

Writing the characters of a set byte by byte does not change what a text stands for, as long as
percent signs and digits are none of the set: a percent sign of the text itself stays what it was,
whatever is written behind it. And a text stands for at most as many bytes as it has, and for as
many only if it stands for itself.
-/

namespace PromptRunner.Web

open PromptRunner.Text

variable {set : Char → Bool} {c : Char} {b : UInt8} {s t rest : List Char}

@[simp] theorem percentDecode_nil : percentDecode [] = [] := rfl

theorem percentDecode_escape {h l : Char} (hb : digitsByte? (h :: l :: rest) = some b) :
    percentDecode ('%' :: h :: l :: rest) = b :: percentDecode rest := by
  simp only [percentDecode, percentDecodeFrom, if_true, hb]

theorem percentDecode_plain (h : c = '%' → digitsByte? rest = none) :
    percentDecode (c :: rest) = encodeChar c ++ percentDecode rest := by
  by_cases hc : c = '%'
  · simp only [percentDecode, percentDecodeFrom, hc, if_true, h hc]
  · simp only [percentDecode, percentDecodeFrom, if_neg hc]

/-- Where there are digits, there are two. -/
theorem exists_digits (h : digitsByte? s = some b) :
    ∃ x y rest, s = x :: y :: rest ∧ (hexValue? x).isSome ∧ (hexValue? y).isSome ∧
      ∀ rest', digitsByte? (x :: y :: rest') = some b := by
  unfold digitsByte? at h
  split at h
  · next x y rest =>
    split at h
    · next hx hy =>
      refine ⟨x, y, rest, rfl, by rw [hx]; rfl, by rw [hy]; rfl, fun rest' => ?_⟩
      simp only [digitsByte?, hx, hy, h]
    · cases h
  · cases h

theorem percentDecode_induction {motive : List Char → Prop} (nil : motive [])
    (escape : ∀ x y b rest, digitsByte? (x :: y :: rest) = some b → (hexValue? x).isSome →
      (hexValue? y).isSome → motive rest → motive ('%' :: x :: y :: rest))
    (plain : ∀ c rest, (c = '%' → digitsByte? rest = none) → motive rest → motive (c :: rest))
    (s : List Char) : motive s := by
  induction hlength : s.length using Nat.strongRecOn generalizing s with
  | _ n ih =>
    cases s with
    | nil => exact nil
    | cons c rest =>
      rw [List.length_cons] at hlength
      by_cases hplain : c = '%' → digitsByte? rest = none
      · exact plain c rest hplain (ih _ (by omega) rest rfl)
      · simp only [Classical.not_imp] at hplain
        obtain ⟨rfl, hdigits⟩ := hplain
        obtain ⟨b, hb⟩ := Option.ne_none_iff_exists'.1 hdigits
        obtain ⟨x, y, rest, rfl, hx, hy, -⟩ := exists_digits hb
        simp only [List.length_cons] at hlength
        exact escape x y b rest hb hx hy (ih _ (by omega) rest rfl)

/-! ## A character that belongs to no escape -/

/-- A character that neither begins an escape nor goes on with one. -/
def IsBarrier (c : Char) : Prop := c ≠ '%' ∧ hexValue? c = none

theorem digitsByte?_append (hc : IsBarrier c) :
    digitsByte? (s ++ c :: t) = digitsByte? s := by
  match s with
  | [] =>
    cases t with
    | nil => rfl
    | cons d t => simp [digitsByte?, hc.2]
  | [d] =>
    simp only [List.cons_append, List.nil_append, digitsByte?, hc.2]
    cases hexValue? d <;> rfl
  | _ :: _ :: _ => rfl

theorem percentDecode_append (hc : IsBarrier c) (s t : List Char) :
    percentDecode (s ++ c :: t) = percentDecode s ++ (encodeChar c ++ percentDecode t) := by
  induction s using percentDecode_induction with
  | nil => exact percentDecode_plain fun h => absurd h hc.1
  | escape x y b rest hb _ _ ih =>
    have hb' : digitsByte? (x :: y :: (rest ++ c :: t)) = some b := by
      rw [← hb]
      rfl
    rw [percentDecode_escape hb]
    show percentDecode ('%' :: x :: y :: (rest ++ c :: t)) = b :: (percentDecode rest ++ _)
    rw [percentDecode_escape hb', ih]
  | plain d rest hplain ih =>
    rw [percentDecode_plain hplain, List.append_assoc, ← ih, List.cons_append]
    refine percentDecode_plain fun hd => ?_
    rw [digitsByte?_append hc]
    exact hplain hd

/-! ## What is written byte by byte -/

theorem percentDecode_percentByte (b : UInt8) (rest : List Char) :
    percentDecode (percentByte b ++ rest) = b :: percentDecode rest := by
  have hb := b.toNat_lt
  refine percentDecode_escape ?_
  simp only [digitsByte?, hexValue?_hexCapital (show b.toNat / 16 < 16 by omega),
    hexValue?_hexCapital (show b.toNat % 16 < 16 by omega), Nat.div_add_mod, UInt8.ofNat_toNat]

theorem percentDecode_percentBytes (bytes : Bytes) (rest : List Char) :
    percentDecode (bytes.flatMap percentByte ++ rest) = bytes ++ percentDecode rest := by
  induction bytes with
  | nil => rfl
  | cons b bytes ih =>
    rw [List.flatMap_cons, List.append_assoc, percentDecode_percentByte, ih, List.cons_append]

/-- A set that leaves percent signs and digits as they are. -/
def Harmless (set : Char → Bool) : Prop := ∀ c, c = '%' ∨ (hexValue? c).isSome → set c = false

theorem percentEncode_cons (set : Char → Bool) (c : Char) (s : List Char) :
    percentEncode set (c :: s) = (if set c then percentChar c else [c]) ++ percentEncode set s :=
  List.flatMap_cons

theorem encodeChar_ne_nil (c : Char) : encodeChar c ≠ [] := by
  obtain ⟨a, tail, hr⟩ := exists_readsAs c
  rw [hr.bytes]
  exact List.cons_ne_nil a tail

theorem digitsByte?_of_first (h : hexValue? c = none) : digitsByte? (c :: s) = none := by
  cases s with
  | nil => rfl
  | cons d s => simp only [digitsByte?, h]

theorem digitsByte?_of_second (h : hexValue? c = none) (d : Char) :
    digitsByte? (d :: c :: s) = none := by
  simp only [digitsByte?, h]
  cases hexValue? d <;> rfl

/-- A character of such a set is no digit, and neither is what it is written with. -/
theorem Harmless.written (hset : Harmless set) (hc : set c = true) :
    hexValue? c = none ∧ ∀ s, ∃ t, percentEncode set (c :: s) = '%' :: t := by
  constructor
  · cases hx : hexValue? c with
    | none => rfl
    | some n =>
      rw [hset c (.inr (by rw [hx]; rfl))] at hc
      cases hc
  · intro s
    cases hb : encodeChar c with
    | nil => exact absurd hb (encodeChar_ne_nil c)
    | cons b bytes =>
      rw [percentEncode_cons, if_pos hc, percentChar, hb]
      exact ⟨_, rfl⟩

/-- Digits that stand first stand first in what is written, and no others come there. -/
theorem digitsByte?_percentEncode (hset : Harmless set) (s : List Char) :
    digitsByte? (percentEncode set s) = digitsByte? s := by
  have hmark : hexValue? '%' = none := rfl
  have hkeep : ∀ c s, set c = false → percentEncode set (c :: s) = c :: percentEncode set s := by
    intro c s hc
    simp [percentEncode_cons, hc]
  cases s with
  | nil => rfl
  | cons c s =>
    cases hc : set c with
    | true =>
      obtain ⟨hdigit, hwritten⟩ := hset.written hc
      obtain ⟨t, ht⟩ := hwritten s
      rw [ht, digitsByte?_of_first hmark, digitsByte?_of_first hdigit]
    | false =>
      rw [hkeep c s hc]
      cases s with
      | nil => rfl
      | cons d s =>
        cases hd : set d with
        | true =>
          obtain ⟨hdigit, hwritten⟩ := hset.written hd
          obtain ⟨t, ht⟩ := hwritten s
          rw [ht, digitsByte?_of_second hmark, digitsByte?_of_second hdigit]
        | false =>
          rw [hkeep d s hd]
          rfl

theorem percentDecode_percentEncode (hset : Harmless set) (s : List Char) :
    percentDecode (percentEncode set s) = percentDecode s := by
  induction s using percentDecode_induction with
  | nil => rfl
  | escape x y b rest hb hx hy ih =>
    have hkept : percentEncode set ('%' :: x :: y :: rest) =
        '%' :: x :: y :: percentEncode set rest := by
      simp [percentEncode_cons, hset '%' (.inl rfl), hset x (.inr hx), hset y (.inr hy)]
    have hb' : digitsByte? (x :: y :: percentEncode set rest) = some b := by
      rw [← hb]
      rfl
    rw [hkept, percentDecode_escape hb', percentDecode_escape hb, ih]
  | plain c rest hplain ih =>
    rw [percentEncode_cons, percentDecode_plain hplain, ← ih]
    split
    · exact percentDecode_percentBytes _ _
    · refine percentDecode_plain fun hc => ?_
      show digitsByte? (percentEncode set rest) = none
      rw [digitsByte?_percentEncode hset]
      exact hplain hc

/-! ## How much a text stands for -/

theorem length_encodeChar_pos (c : Char) : 0 < (encodeChar c).length :=
  List.length_pos_iff.2 (encodeChar_ne_nil c)

/-- A text stands for no more bytes than it has, and for as many only if these are its own. -/
theorem percentDecode_within (s : List Char) :
    (percentDecode s).length ≤ (encode s).length ∧
      ((percentDecode s).length = (encode s).length → percentDecode s = encode s) := by
  induction s using percentDecode_induction with
  | nil => exact ⟨Nat.le_refl _, fun _ => rfl⟩
  | escape x y b rest hb _ _ ih =>
    have hlt : (percentDecode ('%' :: x :: y :: rest)).length <
        (encode ('%' :: x :: y :: rest)).length := by
      have h1 := length_encodeChar_pos '%'
      have h2 := length_encodeChar_pos x
      have h3 := length_encodeChar_pos y
      rw [percentDecode_escape hb, encode_cons, encode_cons, encode_cons]
      simp only [List.length_cons, List.length_append]
      omega
    exact ⟨Nat.le_of_lt hlt, fun h => absurd h (Nat.ne_of_lt hlt)⟩
  | plain c rest hplain ih =>
    rw [percentDecode_plain hplain, encode_cons, List.length_append, List.length_append]
    refine ⟨by omega, fun h => ?_⟩
    rw [ih.2 (by omega)]

end PromptRunner.Web
