import PromptRunner.Proofs.Text.Bytes

/-!
# What bytes write, piece by piece

A text comes back from its bytes, and here bytes come back from their text: whatever `step` takes
for a character is how that character is written (`takenAs_of_step`). So the bytes that decode are
the bytes of texts and no others (`decode?_eq_some_iff`). If some first bytes of a text decode at
all, it is to some first characters of it (`decode?_prefix`): a cut between characters leaves a
beginning of the text, and a cut inside one leaves bytes that are no text.

The reader that puts another text for what is no character goes through the bytes in the same steps.
No step goes past a byte below 0x80, since such a byte continues nothing: what stands on its two
sides is read as if it stood alone (`decodeWith_append`). That is why a row of bytes can be cut at a
mark of a document before anything is known of what lies between the marks.
-/

namespace PromptRunner.Text

/-- How many bytes a step goes past. -/
def Step.width : Step → Nat
  | .char _ width | .broken width => width

variable {a b d x : UInt8} {c : Char} {rest bytes : Bytes} {width : Nat}
  {text replacement : List Char}

/-! ## A step takes a character for what it is -/

/-- A character is taken from just the bytes that write it. -/
structure TakenAs (a : UInt8) (rest : Bytes) (c : Char) (width : Nat) : Prop where
  bytes : encodeChar c = a :: rest.take (width - 1)
  inside : width - 1 ≤ rest.length

theorem toNat_ofNat_of_valid {n : Nat} (h : n.isValidChar) : (Char.ofNat n).toNat = n := by
  rw [Char.ofNat, dif_pos h]
  rfl

theorem byte_eq {n : Nat} (h : n = x.toNat) : UInt8.ofNat n = x := by
  rw [h, UInt8.ofNat_toNat]

theorem takenAs_one (h : a.toNat < 0x80) : TakenAs a rest (Char.ofNat a.toNat) 1 where
  bytes := by
    have hc : (Char.ofNat a.toNat).toNat = a.toNat := toNat_ofNat_of_valid (.inl (by omega))
    simp only [encodeChar, hc, h, ↓reduceIte, UInt8.ofNat_toNat, Nat.sub_self, List.take_zero]
  inside := Nat.zero_le _

theorem takenAs_two (ha : 0xC2 ≤ a.toNat) (ha' : a.toNat < 0xE0) (hb : fitsSecond a b = true) :
    TakenAs a (b :: rest) (Char.ofNat (a.toNat % 0x20 * 0x40 + tailBits b)) 2 where
  bytes := by
    obtain ⟨hb, hb', -⟩ := fitsSecond_iff.1 hb
    generalize hn : a.toNat % 0x20 * 0x40 + tailBits b = n
    simp only [tailBits] at hn
    have hc := toNat_ofNat_of_valid (n := n) (.inl (by omega))
    simp only [encodeChar, hc, show ¬ n < 0x80 by omega, show n < 0x800 by omega, ↓reduceIte]
    rw [byte_eq (x := a) (by omega), byte_eq (x := b) (by simp; omega)]
    rfl
  inside := Nat.le_add_left 1 _

theorem takenAs_three (ha : 0xE0 ≤ a.toNat) (ha' : a.toNat < 0xF0) (hb : fitsSecond a b = true)
    (hd : isTail d = true) :
    TakenAs a (b :: d :: rest)
      (Char.ofNat (a.toNat % 0x10 * 0x1000 + tailBits b * 0x40 + tailBits d)) 3 where
  bytes := by
    -- what the ranges behind 0xE0 and 0xED leave out are the short numbers and the surrogates
    obtain ⟨hb, hb', hE0, hED, -⟩ := fitsSecond_iff.1 hb
    obtain ⟨hd, hd'⟩ := isTail_iff.1 hd
    generalize hn : a.toNat % 0x10 * 0x1000 + tailBits b * 0x40 + tailBits d = n
    simp only [tailBits] at hn
    have hc := toNat_ofNat_of_valid (n := n) (by simp only [Nat.isValidChar]; omega)
    simp only [encodeChar, hc, show ¬ n < 0x80 by omega, show ¬ n < 0x800 by omega,
      show n < 0x10000 by omega, ↓reduceIte]
    rw [byte_eq (x := a) (by omega), byte_eq (x := b) (by simp; omega),
      byte_eq (x := d) (by simp; omega)]
    rfl
  inside := Nat.le_add_left 2 _

theorem takenAs_four (ha : 0xF0 ≤ a.toNat) (ha' : a.toNat ≤ 0xF4) (hb : fitsSecond a b = true)
    (hd : isTail d = true) (hx : isTail x = true) :
    TakenAs a (b :: d :: x :: rest) (Char.ofNat (a.toNat % 0x08 * 0x40000 + tailBits b * 0x1000 +
      tailBits d * 0x40 + tailBits x)) 4 where
  bytes := by
    obtain ⟨hb, hb', -, -, hF0, hF4⟩ := fitsSecond_iff.1 hb
    obtain ⟨hd, hd'⟩ := isTail_iff.1 hd
    obtain ⟨hx, hx'⟩ := isTail_iff.1 hx
    generalize hn : a.toNat % 0x08 * 0x40000 + tailBits b * 0x1000 + tailBits d * 0x40 +
      tailBits x = n
    simp only [tailBits] at hn
    have hc := toNat_ofNat_of_valid (n := n) (by simp only [Nat.isValidChar]; omega)
    simp only [encodeChar, hc, show ¬ n < 0x80 by omega, show ¬ n < 0x800 by omega,
      show ¬ n < 0x10000 by omega, ↓reduceIte]
    rw [byte_eq (x := a) (by omega), byte_eq (x := b) (by simp; omega),
      byte_eq (x := d) (by simp; omega), byte_eq (x := x) (by simp; omega)]
    rfl
  inside := Nat.le_add_left 3 _

/-- Whatever is taken for a character is how that character is written. -/
theorem takenAs_of_step (h : step a rest = .char c width) : TakenAs a rest c width := by
  unfold step at h
  split at h
  · next h0 =>
    cases h
    exact takenAs_one (UInt8.lt_iff_toNat_lt.1 h0)
  · split at h
    · cases h
    · next h1 =>
      simp only [Bool.or_eq_true, decide_eq_true_eq, UInt8.lt_iff_toNat_lt, not_or,
        Nat.not_lt] at h1
      obtain ⟨hlow, hhigh⟩ : 0xC2 ≤ a.toNat ∧ a.toNat ≤ 0xF4 := h1
      split at h
      · cases h
      · next b rest =>
        split at h
        · cases h
        · next hb =>
          have hb : fitsSecond a b = true := by simpa using hb
          split at h
          · next h2 =>
            cases h
            exact takenAs_two hlow (UInt8.lt_iff_toNat_lt.1 h2) hb
          · next h2 =>
            have h2 : 0xE0 ≤ a.toNat := Nat.le_of_not_lt fun hlt => h2 (UInt8.lt_iff_toNat_lt.2 hlt)
            split at h
            · cases h
            · next d rest =>
              split at h
              · cases h
              · next hd =>
                have hd : isTail d = true := by simpa using hd
                split at h
                · next h3 =>
                  cases h
                  exact takenAs_three h2 (UInt8.lt_iff_toNat_lt.1 h3) hb hd
                · next h3 =>
                  have h3 : 0xF0 ≤ a.toNat :=
                    Nat.le_of_not_lt fun hlt => h3 (UInt8.lt_iff_toNat_lt.2 hlt)
                  split at h
                  · cases h
                  · next x rest =>
                    split at h
                    · cases h
                    · next hx =>
                      cases h
                      exact takenAs_four h3 hhigh hb hd (by simpa using hx)

/-- The bytes that decode are those that write a text, and they decode to it. -/
theorem decode?_eq_some_iff : decode? bytes = some text ↔ bytes = encode text := by
  constructor
  · intro h
    induction bytes using Bytes.stepwise generalizing text with
    | nil =>
      cases h
      rfl
    | cons a rest ih =>
      rw [decode?_cons] at h
      split at h
      · next c width hstep =>
        obtain ⟨text, htext, rfl⟩ := Option.map_eq_some_iff.1 h
        rw [encode_cons, (takenAs_of_step hstep).bytes, ← ih _ htext, List.cons_append,
          List.take_append_drop]
      · cases h
  · rintro rfl
    exact decode?_encode text

/-- Some first bytes of a text decode, if at all, to some first characters of it. -/
theorem decode?_prefix {s : List Char} (hp : bytes <+: encode s) (h : decode? bytes = some text) :
    text <+: s ∧ bytes = encode text := by
  obtain rfl := decode?_eq_some_iff.1 h
  obtain ⟨rest, hrest⟩ := hp
  have hwhole := decode?_encode s
  rw [← hrest, decode?_append] at hwhole
  obtain ⟨more, -, hmore⟩ := Option.map_eq_some_iff.1 hwhole
  exact ⟨⟨more, hmore⟩, rfl⟩

/-! ## Where no step goes across -/

theorem step_inside (a : UInt8) (rest : Bytes) : (step a rest).width - 1 ≤ rest.length := by
  unfold step
  repeat' split
  all_goals simp [Step.width]

theorem fitsSecond_of_lt (h : b < 0x80) : fitsSecond a b = false := by
  have hb : b.toNat < 0x80 := UInt8.lt_iff_toNat_lt.1 h
  refine Bool.eq_false_iff.2 fun hfits => ?_
  have := (fitsSecond_iff.1 hfits).1
  omega

theorem isTail_of_lt (h : b < 0x80) : isTail b = false := by
  have hb : b.toNat < 0x80 := UInt8.lt_iff_toNat_lt.1 h
  refine Bool.eq_false_iff.2 fun htail => ?_
  have := (isTail_iff.1 htail).1
  omega

/-- A byte below 0x80 stops a step just as the end does. -/
theorem step_append (hb : b < 0x80) (a : UInt8) (rest more : Bytes) :
    step a (rest ++ b :: more) = step a rest := by
  have hsecond := fitsSecond_of_lt (a := a) hb
  have htail := isTail_of_lt hb
  match rest with
  | [] => simp [step, hsecond]
  | [second] => simp [step, htail]
  | [second, third] => simp [step, htail]
  | _ :: _ :: _ :: _ => rfl

/-- What is a text decodes to itself, whatever would stand for the rest. -/
theorem decodeWith_encode (s : List Char) : decodeWith replacement (encode s) = s := by
  induction s with
  | nil => rfl
  | cons c s ih =>
    obtain ⟨a, tail, hr⟩ := exists_readsAs c
    rw [encode_cons, hr.bytes, List.cons_append, decodeWith_cons, hr.whole]
    simp only [Nat.add_sub_cancel, List.drop_left, ih]

/-- A row of bytes is read in two parts at any byte below 0x80. -/
theorem decodeWith_append (hb : b < 0x80) (bytes more : Bytes) :
    decodeWith replacement (bytes ++ b :: more) =
      decodeWith replacement bytes ++ Char.ofNat b.toNat :: decodeWith replacement more := by
  induction bytes using Bytes.stepwise with
  | nil =>
    rw [List.nil_append, decodeWith_cons, step.eq_def, if_pos hb]
    rfl
  | cons a rest ih =>
    have hinside := step_inside a rest
    have hleft := ih ((step a rest).width - 1)
    rw [List.cons_append, decodeWith_cons, decodeWith_cons, step_append hb]
    cases hstep : step a rest with
    | char c width =>
      simp only [hstep, Step.width] at hinside hleft ⊢
      rw [List.drop_append_of_le_length hinside, hleft, List.cons_append]
    | broken width =>
      simp only [hstep, Step.width] at hinside hleft ⊢
      rw [List.drop_append_of_le_length hinside, hleft, List.append_assoc]

end PromptRunner.Text
