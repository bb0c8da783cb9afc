import PromptRunner.Proofs.Json.Skipping
import PromptRunner.Proofs.Text.Pieces
import PromptRunner.Provider.Chat

/-!
# Bytes that are no characters, in a success

A success is read as a text (`bodyText`). Where its bytes write one, that is the text
(`bodyText_of_decode?`), but they need not: the vendors' readers look at the bytes of a string only
where they keep the string. What stands for bytes that are no characters has to say the same, and
here it is held to that, for the bytes between two marks.
A string that is skipped may hold any of them (`skipString_bodyText`). A string that is kept is read
exactly if its bytes write a text, and then as that text (`readString_bodyText`).
-/

namespace PromptRunner.Provider

open PromptRunner.Json PromptRunner.Text

variable {b : UInt8} {c : Char} {bytes tail : Bytes} {s r : List Char}

/-- A byte that neither ends a string nor begins an escape, and that a string may hold. -/
structure PlainByte (b : UInt8) : Prop where
  no_mark : b ≠ 0x22
  no_slash : b ≠ 0x5C
  no_control : 0x20 ≤ b

/-- A success that is a text is read as it. -/
theorem bodyText_of_decode? (h : decode? bytes = some s) : bodyText bytes = s := by
  rw [decode?_eq_some_iff.1 h]
  exact decodeWith_encode s

theorem bodyText_mark (bytes rest : Bytes) :
    bodyText (bytes ++ 0x22 :: rest) = bodyText bytes ++ '"' :: bodyText rest :=
  decodeWith_append (by decide) bytes rest

/-- The first byte of a character tells whether a string may hold it as it is. -/
theorem PlainByte.char (h : PlainByte b) (hc : encodeChar c = b :: tail) :
    c ≠ '"' ∧ c ≠ '\\' ∧ isControl c = false := by
  refine ⟨?_, ?_, Bool.eq_false_iff.2 fun hcontrol => ?_⟩
  · rintro rfl
    exact h.no_mark (List.cons.inj hc).1.symm
  · rintro rfl
    exact h.no_slash (List.cons.inj hc).1.symm
  · have hlt : c.toNat < 0x20 := by simpa only [isControl, decide_eq_true_eq] using hcontrol
    simp only [encodeChar, show c.toNat < 0x80 by omega, ↓reduceIte] at hc
    have hb := UInt8.le_iff_toNat_le.1 h.no_control
    rw [← (List.cons.inj hc).1, toNat_byte (by omega)] at hb
    exact absurd hlt (Nat.not_lt.2 hb)

theorem body_unkept (h : Body s) : Body (unkept ++ s) :=
  .plain (by decide) (by decide) (by decide) (.numbered (n := 0xDC00) (by decide) h)

theorem toOption_prepend (c : Char) (x : Reading (List Char)) :
    (x.prepend c).toOption = x.toOption.map fun (text, rest) => (c :: text, rest) := by
  cases x <;> rfl

theorem readString_unkept (r : List Char) :
    readString (unkept ++ r) = .error (.here .loneSurrogate r) := by
  have hhalf : readString (unkept.tail ++ r) = .error (.here .loneSurrogate r) := by
    rw [readString.eq_def]
    rfl
  show readString ('\uFFFD' :: (unkept.tail ++ r)) = _
  rw [readString_plain (by decide) (by decide) (by decide), hhalf]
  rfl

/-- Plain bytes are what a string may hold, whether they are characters or not. -/
theorem body_bodyText (h : ∀ b ∈ bytes, PlainByte b) : Body (bodyText bytes) := by
  induction bytes using Bytes.stepwise with
  | nil => exact .nil
  | cons a rest ih =>
    obtain ⟨ha, hrest⟩ := List.forall_mem_cons.1 h
    have hleft : ∀ k, Body (bodyText (rest.drop k)) := fun k =>
      ih k fun b hb => hrest b (List.mem_of_mem_drop hb)
    rw [bodyText, decodeWith_cons]
    split
    · next c width hstep =>
      obtain ⟨hmark, hslash, hcontrol⟩ := ha.char (takenAs_of_step hstep).bytes
      exact .plain hmark hslash hcontrol (hleft _)
    · exact body_unkept (hleft _)

/-- A string that nobody asked for may hold any plain bytes. -/
theorem skipString_bodyText (h : ∀ b ∈ bytes, PlainByte b) (rest : Bytes) :
    skipString (bodyText (bytes ++ 0x22 :: rest)) = .ok (bodyText rest) := by
  rw [bodyText_mark]
  exact skipString_body (body_bodyText h) _

/-- A string that is kept has to be a text, and is read as it. -/
theorem readString_bodyText (h : ∀ b ∈ bytes, PlainByte b) (rest : Bytes) :
    (readString (bodyText (bytes ++ 0x22 :: rest))).toOption =
      (decode? bytes).map (·, bodyText rest) := by
  rw [bodyText_mark]
  generalize bodyText rest = r
  induction bytes using Bytes.stepwise with
  | nil =>
    show (readString ('"' :: r)).toOption = _
    rw [readString_quote]
    rfl
  | cons a rest ih =>
    obtain ⟨ha, hrest⟩ := List.forall_mem_cons.1 h
    rw [bodyText, decodeWith_cons, decode?_cons]
    cases hstep : step a rest with
    | char c width =>
      obtain ⟨hmark, hslash, hcontrol⟩ := ha.char (takenAs_of_step hstep).bytes
      have hread := ih (width - 1) fun b hb => hrest b (List.mem_of_mem_drop hb)
      rw [bodyText] at hread
      simp only [List.cons_append, readString_plain hmark hslash hcontrol, toOption_prepend, hread,
        Option.map_map]
      rfl
    | broken width =>
      simp only [List.append_assoc, readString_unkept]
      rfl

end PromptRunner.Provider
