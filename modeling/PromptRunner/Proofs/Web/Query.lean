import PromptRunner.Proofs.Text.Bytes
import PromptRunner.Web.Url

/-!
# What is added to a query can be read off the address

A form's text writes every byte in one of three ways, which its first character tells apart: itself,
a plus sign, or a percent sign with two digits. So the bytes can be read back one at a time, and two
texts that are written alike are the same. The value added to a query stands in the address between
parts that do not depend on it, so the text of the address tells it.
-/

namespace PromptRunner.Web

open PromptRunner.Text

theorem hexValue?_hexCapital {n : Nat} (h : n < 16) : hexValue? (hexCapital n) = some n := by
  have : ∀ m : Fin 16, hexValue? (hexCapital m) = some m.val := by decide
  exact this ⟨n, h⟩

/-- The byte that a form's text begins with. -/
def formHead : List Char → Option UInt8
  | [] => none
  | '%' :: rest => digitsByte? rest
  | '+' :: _ => some 0x20
  | c :: _ => some (UInt8.ofNat c.toNat)

theorem formHead_plain {c : Char} (hpercent : c ≠ '%') (hplus : c ≠ '+') (rest : List Char) :
    formHead (c :: rest) = some (UInt8.ofNat c.toNat) := by
  rw [formHead]
  · exact hpercent
  · exact hplus

theorem toNat_ofNat_byte (b : UInt8) : (Char.ofNat b.toNat).toNat = b.toNat := by
  have hvalid : b.toNat.isValidChar := .inl (by have := b.toNat_lt; omega)
  rw [Char.ofNat, dif_pos hvalid]
  rfl

theorem formHead_percentByte (b : UInt8) (rest : List Char) :
    formHead (percentByte b ++ rest) = some b := by
  have hb := b.toNat_lt
  rw [percentByte, List.cons_append, formHead, List.cons_append, List.cons_append, digitsByte?,
    hexValue?_hexCapital (by omega), hexValue?_hexCapital (by omega)]
  simp only [Nat.div_add_mod, UInt8.ofNat_toNat]

theorem formHead_formByte (b : UInt8) (rest : List Char) :
    formHead (formByte b ++ rest) = some b := by
  have hcode := toNat_ofNat_byte b
  rw [formByte]
  split
  · next hplain =>
    have hmark : Char.ofNat b.toNat ≠ '%' ∧ Char.ofNat b.toNat ≠ '+' := by
      constructor <;> intro h <;> rw [h] at hplain <;> simp at hplain
    rw [List.singleton_append, formHead_plain hmark.1 hmark.2, hcode, UInt8.ofNat_toNat]
  · split
    · next hspace =>
      rw [hspace] at hcode
      rw [List.singleton_append, formHead, ← UInt8.ofNat_toNat (x := b), ← hcode]
      rfl
    · exact formHead_percentByte b rest

theorem flatMap_formByte_injective {a b : Bytes} (h : a.flatMap formByte = b.flatMap formByte) :
    a = b := by
  induction a generalizing b with
  | nil =>
    cases b with
    | nil => rfl
    | cons y b =>
      have hhead := congrArg formHead h
      rw [List.flatMap_cons, formHead_formByte] at hhead
      cases hhead
  | cons x a ih =>
    cases b with
    | nil =>
      have hhead := congrArg formHead h
      rw [List.flatMap_cons, formHead_formByte] at hhead
      cases hhead
    | cons y b =>
      rw [List.flatMap_cons, List.flatMap_cons] at h
      have hhead := congrArg formHead h
      rw [formHead_formByte, formHead_formByte, Option.some.injEq] at hhead
      subst hhead
      rw [ih (List.append_cancel_left h)]

theorem formEncode_injective {s t : List Char} (h : formEncode s = formEncode t) : s = t := by
  have hbytes := congrArg decode? (flatMap_formByte_injective h)
  rw [decode?_encode, decode?_encode] at hbytes
  exact Option.some.inj hbytes

/-- The text of an address tells the value that was added to its query. -/
theorem addQuery_text_injective {u : Url} {name value other : String}
    (h : (u.addQuery name value).text = (u.addQuery name other).text) : value = other := by
  simp only [Url.text, Url.target, Url.addQuery] at h
  have hform : formEncode value.toList = formEncode other.toList := by simpa using h
  exact String.toList_injective (formEncode_injective hform)

end PromptRunner.Web
