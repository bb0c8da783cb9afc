import Mathlib.Data.List.Basic
import PromptRunner.Text.Utf8

/-!
# Texts come back from their bytes

The bytes of a text decode to the text. It comes from one look at the first byte of a character. It
says how many bytes follow, `step` asks for all of them, and each of them is one that it takes; so
the character is read whole, whatever stands behind it.

Both readers go on behind a step as if they began there (`decode?_cons`, `decodeWith_cons`), and
that is all that is used of how they count their steps.
-/

namespace PromptRunner.Text

variable {replacement : List Char}

/-! ## One step after the other -/

/-- What a step goes past leaves an end of the bytes behind the first one, so that what holds of
these carries over. -/
theorem Bytes.stepwise {motive : Bytes → Prop} (nil : motive [])
    (cons : ∀ a rest, (∀ k, motive (rest.drop k)) → motive (a :: rest)) (bytes : Bytes) :
    motive bytes := by
  induction hn : bytes.length using Nat.strongRecOn generalizing bytes with
  | ind n ih =>
    cases bytes with
    | nil => exact nil
    | cons a rest =>
      refine cons a rest fun k => ih (rest.drop k).length ?_ _ rfl
      simp only [List.length_drop, List.length_cons] at hn ⊢
      omega

/-- Any number of steps that is enough will do. -/
theorem decodeSteps_eq (replacement : Option (List Char)) :
    ∀ (fuel fuel' : Nat) (bytes : Bytes), bytes.length ≤ fuel → bytes.length ≤ fuel' →
      decodeSteps replacement fuel bytes = decodeSteps replacement fuel' bytes := by
  intro fuel
  induction fuel with
  | zero =>
    intro fuel' bytes h _
    obtain rfl := List.eq_nil_of_length_eq_zero (Nat.le_zero.1 h)
    cases fuel' <;> rfl
  | succ fuel ih =>
    intro fuel' bytes h h'
    cases bytes with
    | nil => cases fuel' <;> rfl
    | cons a rest =>
      obtain ⟨fuel', rfl⟩ : ∃ n, fuel' = n + 1 := ⟨fuel' - 1, by simp at h'; omega⟩
      have hleft : ∀ k, decodeSteps replacement fuel (rest.drop k) =
          decodeSteps replacement fuel' (rest.drop k) := fun k => by
        have hlength : (rest.drop k).length ≤ rest.length := by simp
        exact ih fuel' _ (Nat.le_trans hlength (Nat.le_of_succ_le_succ h))
          (Nat.le_trans hlength (Nat.le_of_succ_le_succ h'))
      simp only [decodeSteps, hleft]

theorem decodeSteps_left (replacement : Option (List Char)) (rest : Bytes) (k : Nat) :
    decodeSteps replacement rest.length (rest.drop k) =
      decodeSteps replacement (rest.drop k).length (rest.drop k) :=
  decodeSteps_eq replacement _ _ _ (by simp) (Nat.le_refl _)

theorem decode?_cons (a : UInt8) (rest : Bytes) :
    decode? (a :: rest) =
      match step a rest with
      | .char c width => (decode? (rest.drop (width - 1))).map (c :: ·)
      | .broken _ => none := by
  cases hstep : step a rest with
  | char c width => simp only [decode?, List.length_cons, decodeSteps, hstep, decodeSteps_left]
  | broken width => simp only [decode?, List.length_cons, decodeSteps, hstep]

/-- The replacing reader always gets through. -/
theorem decodeSteps_some (replacement : List Char) (bytes : Bytes) :
    decodeSteps (some replacement) bytes.length bytes = some (decodeWith replacement bytes) := by
  have hsome : ∃ text, decodeSteps (some replacement) bytes.length bytes = some text := by
    induction bytes using Bytes.stepwise with
    | nil => exact ⟨[], rfl⟩
    | cons a rest ih =>
      simp only [List.length_cons, decodeSteps, decodeSteps_left]
      cases step a rest with
      | char c width =>
        obtain ⟨text, htext⟩ := ih (width - 1)
        exact ⟨c :: text, by simp only [htext, Option.map_some]⟩
      | broken width =>
        obtain ⟨text, htext⟩ := ih (width - 1)
        exact ⟨replacement ++ text, by simp only [htext, Option.map_some]⟩
  obtain ⟨text, htext⟩ := hsome
  rw [decodeWith, htext, Option.getD_some]

theorem decodeWith_cons (a : UInt8) (rest : Bytes) :
    decodeWith replacement (a :: rest) =
      match step a rest with
      | .char c width => c :: decodeWith replacement (rest.drop (width - 1))
      | .broken width => replacement ++ decodeWith replacement (rest.drop (width - 1)) := by
  rw [decodeWith]
  simp only [List.length_cons, decodeSteps, decodeSteps_left, decodeSteps_some]
  cases step a rest <;> rfl

/-! ## The bytes of a character -/

/-- A character is read from its bytes, whatever stands behind them. -/
structure ReadsAs (c : Char) (a : UInt8) (tail : Bytes) : Prop where
  bytes : encodeChar c = a :: tail
  whole : ∀ rest, step a (tail ++ rest) = .char c (tail.length + 1)

/-! ## The first byte and those behind it

One lemma for each width. The numbers of the bytes are compared as naturals, where every test of
`step` is a comparison of the character's number with a bound. -/

theorem toNat_byte {n : Nat} (h : n < 256) : (UInt8.ofNat n).toNat = n := by
  rw [UInt8.toNat_ofNat', Nat.mod_eq_of_lt h]

theorem isTail_iff {b : UInt8} : isTail b = true ↔ 0x80 ≤ b.toNat ∧ b.toNat ≤ 0xBF := by
  simp only [isTail, UInt8.le_iff_toNat_le, Bool.and_eq_true, decide_eq_true_eq]
  exact Iff.rfl

/-- The bounds that the second byte is held to, as numbers. -/
theorem fitsSecond_iff {a b : UInt8} : fitsSecond a b = true ↔
    0x80 ≤ b.toNat ∧ b.toNat ≤ 0xBF ∧ (a.toNat = 0xE0 → 0xA0 ≤ b.toNat) ∧
      (a.toNat = 0xED → b.toNat ≤ 0x9F) ∧ (a.toNat = 0xF0 → 0x90 ≤ b.toNat) ∧
      (a.toNat = 0xF4 → b.toNat ≤ 0x8F) := by
  have hfirst : ∀ k : Nat, k < 256 → (a = UInt8.ofNat k ↔ a.toNat = k) := fun k hk => by
    rw [← UInt8.toNat_inj, toNat_byte hk]
  have h0 : a = 0xE0 ↔ a.toNat = 0xE0 := hfirst 0xE0 (by decide)
  have h1 : a = 0xED ↔ a.toNat = 0xED := hfirst 0xED (by decide)
  have h2 : a = 0xF0 ↔ a.toNat = 0xF0 := hfirst 0xF0 (by decide)
  have h3 : a = 0xF4 ↔ a.toNat = 0xF4 := hfirst 0xF4 (by decide)
  have hrange : ∀ low high : Nat, low < 256 → high < 256 →
      ((UInt8.ofNat low ≤ b && b ≤ UInt8.ofNat high) = true ↔
        low ≤ b.toNat ∧ b.toNat ≤ high) := fun low high hlow hhigh => by
    simp only [UInt8.le_iff_toNat_le, toNat_byte hlow, toNat_byte hhigh, Bool.and_eq_true,
      decide_eq_true_eq]
  unfold fitsSecond secondRange
  split
  · next ha =>
    have ha := h0.1 ha
    refine (hrange 0xA0 0xBF (by decide) (by decide)).trans ?_
    omega
  · next hE0 =>
    rw [h0] at hE0
    split
    · next ha =>
      have ha := h1.1 ha
      refine (hrange 0x80 0x9F (by decide) (by decide)).trans ?_
      omega
    · next hED =>
      rw [h1] at hED
      split
      · next ha =>
        have ha := h2.1 ha
        refine (hrange 0x90 0xBF (by decide) (by decide)).trans ?_
        omega
      · next hF0 =>
        rw [h2] at hF0
        split
        · next ha =>
          have ha := h3.1 ha
          refine (hrange 0x80 0x8F (by decide) (by decide)).trans ?_
          omega
        · next hF4 =>
          rw [h3] at hF4
          refine (hrange 0x80 0xBF (by decide) (by decide)).trans ?_
          omega

theorem isTail_byte {n : Nat} (h : n < 0x40) : isTail (UInt8.ofNat (0x80 + n)) = true := by
  rw [isTail_iff, toNat_byte (by omega)]
  omega

theorem tailBits_byte {n : Nat} (h : n < 0x40) : tailBits (UInt8.ofNat (0x80 + n)) = n := by
  rw [tailBits, toNat_byte (by omega)]
  omega

/-- A second byte is taken if it lies in the range that the first one leaves. -/
theorem fitsSecond_byte {a n : Nat} (ha : a < 256) (hn : n < 0x40)
    (hE0 : a = 0xE0 → 0x20 ≤ n) (hED : a = 0xED → n < 0x20) (hF0 : a = 0xF0 → 0x10 ≤ n)
    (hF4 : a = 0xF4 → n < 0x10) :
    fitsSecond (UInt8.ofNat a) (UInt8.ofNat (0x80 + n)) = true := by
  rw [fitsSecond_iff, toNat_byte ha, toNat_byte (by omega)]
  omega

theorem byte_lt_iff {a k : Nat} (ha : a < 256) (hk : k < 256) :
    UInt8.ofNat a < UInt8.ofNat k ↔ a < k := by
  rw [UInt8.lt_iff_toNat_lt, toNat_byte ha, toNat_byte hk]

theorem not_broken_byte {a : Nat} (ha : 0xC2 ≤ a) (ha' : a ≤ 0xF4) :
    ¬ UInt8.ofNat a < 0x80 ∧ (UInt8.ofNat a < 0xC2 || 0xF4 < UInt8.ofNat a) = false := by
  have h0 := byte_lt_iff (a := a) (k := 0x80) (by omega) (by decide)
  have h1 := byte_lt_iff (a := a) (k := 0xC2) (by omega) (by decide)
  have h2 := byte_lt_iff (a := 0xF4) (k := a) (by decide) (by omega)
  refine ⟨fun h => absurd (h0.1 h) (by omega), ?_⟩
  rw [Bool.or_eq_false_iff, decide_eq_false_iff_not, decide_eq_false_iff_not]
  exact ⟨fun h => absurd (h1.1 h) (by omega), fun h => absurd (h2.1 h) (by omega)⟩

theorem ofNat_of_toNat {c : Char} {n : Nat} (h : n = c.toNat) : Char.ofNat n = c := by
  rw [h, Char.ofNat_toNat]

theorem readsAs_one {c : Char} (h : c.toNat < 0x80) :
    ReadsAs c (UInt8.ofNat c.toNat) [] where
  bytes := by simp only [encodeChar, h, ↓reduceIte]
  whole := by
    intro rest
    have hlt : UInt8.ofNat c.toNat < 0x80 :=
      (byte_lt_iff (k := 0x80) (by omega) (by decide)).2 h
    rw [step.eq_def, if_pos hlt, toNat_byte (by omega), Char.ofNat_toNat]
    rfl

theorem readsAs_two {c : Char} (h : 0x80 ≤ c.toNat) (h' : c.toNat < 0x800) :
    ReadsAs c (UInt8.ofNat (0xC0 + c.toNat / 0x40)) [UInt8.ofNat (0x80 + c.toNat % 0x40)] where
  bytes := by
    simp only [encodeChar, show ¬ c.toNat < 0x80 by omega, h', ↓reduceIte]
    simp
  whole := by
    intro rest
    obtain ⟨h0, h1⟩ := not_broken_byte (a := 0xC0 + c.toNat / 0x40) (by omega) (by omega)
    have h2 : fitsSecond (UInt8.ofNat (0xC0 + c.toNat / 0x40))
        (UInt8.ofNat (0x80 + c.toNat % 0x40)) = true :=
      fitsSecond_byte (by omega) (by omega) (by omega) (by omega) (by omega) (by omega)
    have h3 : UInt8.ofNat (0xC0 + c.toNat / 0x40) < 0xE0 :=
      (byte_lt_iff (k := 0xE0) (by omega) (by decide)).2 (by omega)
    have hc : Char.ofNat ((0xC0 + c.toNat / 0x40) % 0x20 * 0x40 + c.toNat % 0x40) = c :=
      ofNat_of_toNat (by omega)
    simp only [List.cons_append, step, h0, h1, h2, h3, Bool.false_eq_true, Bool.not_true,
      ↓reduceIte, toNat_byte (show 0xC0 + c.toNat / 0x40 < 256 by omega),
      tailBits_byte (show c.toNat % 0x40 < 0x40 by omega), hc]
    rfl

theorem readsAs_three {c : Char} (h : 0x800 ≤ c.toNat) (h' : c.toNat < 0x10000) :
    ReadsAs c (UInt8.ofNat (0xE0 + c.toNat / 0x1000))
      [UInt8.ofNat (0x80 + c.toNat / 0x40 % 0x40), UInt8.ofNat (0x80 + c.toNat % 0x40)] := by
  -- no character has the number of a surrogate, which is what the range behind 0xED leaves out
  have hvalid : c.toNat < 0xD800 ∨ 0xDFFF < c.toNat := c.valid.imp_right And.left
  obtain ⟨h0, h1⟩ := not_broken_byte (a := 0xE0 + c.toNat / 0x1000) (by omega) (by omega)
  have h2 : fitsSecond (UInt8.ofNat (0xE0 + c.toNat / 0x1000))
      (UInt8.ofNat (0x80 + c.toNat / 0x40 % 0x40)) = true :=
    fitsSecond_byte (by omega) (by omega) (by omega) (by omega) (by omega) (by omega)
  have h3 : ¬ UInt8.ofNat (0xE0 + c.toNat / 0x1000) < 0xE0 := fun hlt =>
    absurd ((byte_lt_iff (k := 0xE0) (by omega) (by decide)).1 hlt) (by omega)
  have h4 : UInt8.ofNat (0xE0 + c.toNat / 0x1000) < 0xF0 :=
    (byte_lt_iff (k := 0xF0) (by omega) (by decide)).2 (by omega)
  have h5 := isTail_byte (show c.toNat % 0x40 < 0x40 by omega)
  have hc : Char.ofNat ((0xE0 + c.toNat / 0x1000) % 0x10 * 0x1000 +
      c.toNat / 0x40 % 0x40 * 0x40 + c.toNat % 0x40) = c := ofNat_of_toNat (by omega)
  refine ⟨?_, ?_⟩
  · simp only [encodeChar, show ¬ c.toNat < 0x80 by omega, show ¬ c.toNat < 0x800 by omega, h',
      ↓reduceIte]
    simp
  · intro rest
    simp only [List.cons_append, step, h0, h1, h2, h3, h4, h5, Bool.false_eq_true, Bool.not_true,
      ↓reduceIte, toNat_byte (show 0xE0 + c.toNat / 0x1000 < 256 by omega),
      tailBits_byte (show c.toNat / 0x40 % 0x40 < 0x40 by omega),
      tailBits_byte (show c.toNat % 0x40 < 0x40 by omega), hc]
    rfl

theorem readsAs_four {c : Char} (h : 0x10000 ≤ c.toNat) :
    ReadsAs c (UInt8.ofNat (0xF0 + c.toNat / 0x40000))
      [UInt8.ofNat (0x80 + c.toNat / 0x1000 % 0x40), UInt8.ofNat (0x80 + c.toNat / 0x40 % 0x40),
        UInt8.ofNat (0x80 + c.toNat % 0x40)] := by
  -- the last character is what the range behind 0xF4 ends at
  have hvalid : c.toNat < 0x110000 := by
    rcases c.valid with hv | hv
    · have hlt : c.toNat < 0xD800 := hv
      omega
    · exact hv.2
  obtain ⟨h0, h1⟩ := not_broken_byte (a := 0xF0 + c.toNat / 0x40000) (by omega) (by omega)
  have h2 : fitsSecond (UInt8.ofNat (0xF0 + c.toNat / 0x40000))
      (UInt8.ofNat (0x80 + c.toNat / 0x1000 % 0x40)) = true :=
    fitsSecond_byte (by omega) (by omega) (by omega) (by omega) (by omega) (by omega)
  have h3 : ¬ UInt8.ofNat (0xF0 + c.toNat / 0x40000) < 0xE0 := fun hlt =>
    absurd ((byte_lt_iff (k := 0xE0) (by omega) (by decide)).1 hlt) (by omega)
  have h4 : ¬ UInt8.ofNat (0xF0 + c.toNat / 0x40000) < 0xF0 := fun hlt =>
    absurd ((byte_lt_iff (k := 0xF0) (by omega) (by decide)).1 hlt) (by omega)
  have h5 := isTail_byte (show c.toNat / 0x40 % 0x40 < 0x40 by omega)
  have h6 := isTail_byte (show c.toNat % 0x40 < 0x40 by omega)
  have hc : Char.ofNat ((0xF0 + c.toNat / 0x40000) % 0x08 * 0x40000 +
      c.toNat / 0x1000 % 0x40 * 0x1000 + c.toNat / 0x40 % 0x40 * 0x40 + c.toNat % 0x40) = c :=
    ofNat_of_toNat (by omega)
  refine ⟨?_, ?_⟩
  · simp only [encodeChar, show ¬ c.toNat < 0x80 by omega, show ¬ c.toNat < 0x800 by omega,
      show ¬ c.toNat < 0x10000 by omega, ↓reduceIte]
    simp
  · intro rest
    simp only [List.cons_append, step, h0, h1, h2, h3, h4, h5, h6, Bool.false_eq_true,
      Bool.not_true, ↓reduceIte, toNat_byte (show 0xF0 + c.toNat / 0x40000 < 256 by omega),
      tailBits_byte (show c.toNat / 0x1000 % 0x40 < 0x40 by omega),
      tailBits_byte (show c.toNat / 0x40 % 0x40 < 0x40 by omega),
      tailBits_byte (show c.toNat % 0x40 < 0x40 by omega), hc]
    rfl

/-- Every character is read from its bytes. -/
theorem exists_readsAs (c : Char) : ∃ a tail, ReadsAs c a tail := by
  rcases Nat.lt_or_ge c.toNat 0x80 with h | h
  · exact ⟨_, _, readsAs_one h⟩
  · rcases Nat.lt_or_ge c.toNat 0x800 with h' | h'
    · exact ⟨_, _, readsAs_two h h'⟩
    · rcases Nat.lt_or_ge c.toNat 0x10000 with h'' | h''
      · exact ⟨_, _, readsAs_three h' h''⟩
      · exact ⟨_, _, readsAs_four h''⟩

/-! ## Whole texts -/

theorem encode_cons (c : Char) (s : List Char) : encode (c :: s) = encodeChar c ++ encode s :=
  List.flatMap_cons

/-- One character is read off the front. -/
theorem decode?_encodeChar (c : Char) (rest : Bytes) :
    decode? (encodeChar c ++ rest) = (decode? rest).map (c :: ·) := by
  obtain ⟨a, tail, hr⟩ := exists_readsAs c
  rw [hr.bytes, List.cons_append, decode?_cons, hr.whole rest]
  simp only [Nat.add_sub_cancel, List.drop_left]

/-- So is a text. -/
theorem decode?_append (s : List Char) (rest : Bytes) :
    decode? (encode s ++ rest) = (decode? rest).map (s ++ ·) := by
  induction s with
  | nil => exact Option.map_id'.symm
  | cons c s ih =>
    rw [encode_cons, List.append_assoc, decode?_encodeChar, ih, Option.map_map]
    rfl

theorem decode?_encode (s : List Char) : decode? (encode s) = some s := by
  have h := decode?_append s []
  rw [List.append_nil] at h
  rw [h]
  exact congrArg some (List.append_nil s)

theorem stringOf?_bytesOf (s : String) : stringOf? (bytesOf s) = some s := by
  rw [stringOf?, bytesOf, decode?_encode]
  simp

end PromptRunner.Text
