import Mathlib.Data.List.DropRight
import PromptRunner.Proofs.Json.Numerals

/-!
# What a document is

The readers say what they do with a text; this module says, without them, what a document is and
what it means. `Spells m s` holds if `s` is a document that means `m`. It is the grammar of the
format, constructor by constructor: words, numerals, strings with their escapes, lists and objects
with blanks between any two parts. Nothing limits how deep a document is, how large a number is or
how often a name is written.

A string whose escapes name half of a surrogate pair is a string of the grammar, but no text. Its
meaning is `none`, and the readers differ on it: one that wants the text refuses it, and one that
only steps over it does not mind.

Parts are written in front of what follows them. A text in the middle of a document is then always
`part.write rest`, and no proof has to move brackets in a long row of appended parts.
-/

namespace PromptRunner.Json

/-! ## Meanings -/

/-- What a document means. Of a number only its value as a whole number without a sign is kept. -/
inductive Meaning where
  | null
  | boolean (b : Bool)
  | natural (n : Nat)
  | number
  | string (text : Option String)
  | list (items : List Meaning)
  | object (members : List (Option String × Meaning))

namespace Meaning

/-- The text that a string is. -/
def text? : Meaning → Option String
  | .string text => text
  | _ => none

def natural? : Meaning → Option Nat
  | .natural n => some n
  | _ => none

/-- The first member of a name. -/
def member? (m : Meaning) (name : String) : Option Meaning :=
  match m with
  | .object members => members.lookup (some name)
  | _ => none

theorem member?_cons_self (name : String) (m : Meaning) (ms : List (Option String × Meaning)) :
    member? (.object ((some name, m) :: ms)) name = some m :=
  List.lookup_cons_self

theorem member?_cons_ne {n : Option String} {name : String} (h : n ≠ some name) (m : Meaning)
    (ms : List (Option String × Meaning)) :
    member? (.object ((n, m) :: ms)) name = member? (.object ms) name := by
  have hne : (some name == n) = false := beq_eq_false_iff_ne.2 (Ne.symm h)
  rw [member?, List.lookup_cons, hne]
  rfl

theorem member?_eq_none {name : String} {ms : List (Option String × Meaning)}
    (h : ∀ p ∈ ms, p.1 ≠ some name) : member? (.object ms) name = none :=
  List.lookup_eq_none_iff.2 fun p hp => bne_iff_ne.2 (Ne.symm (h p hp))

/-- The value at the end of a path of names. -/
def at? : Meaning → List String → Option Meaning
  | m, [] => some m
  | m, name :: path => (m.member? name).bind (at? · path)

end Meaning

/-! ## Blanks -/

/-- Blanks between the parts of a document. -/
abbrev Blanks := {b : List Char // ∀ c ∈ b, isSpace c = true}

def Blanks.none : Blanks := ⟨[], nofun⟩

/-- One blank. -/
def Blanks.gap : Blanks := ⟨[' '], by simp [isSpace]⟩

theorem isSpace_of_mem_newLine {level : Nat} {c : Char} (h : c ∈ newLine level) :
    isSpace c = true := by
  rcases List.mem_cons.1 h with rfl | h
  · rfl
  · rw [List.eq_of_mem_replicate h]
    rfl

/-- A new line with its indentation. -/
def Blanks.newLine (level : Nat) : Blanks := ⟨Json.newLine level, fun _ => isSpace_of_mem_newLine⟩

theorem skipSpace_blanks (b : Blanks) (s : List Char) : skipSpace (b.1 ++ s) = skipSpace s :=
  List.dropWhile_append_of_pos b.2

theorem skipSpace_skipSpace (s : List Char) : skipSpace (skipSpace s) = skipSpace s :=
  List.dropWhile_idempotent isSpace s

theorem leaves_cons {c : Char} (h : c ∈ [',', ']', '\x7d']) (r : List Char) :
    Leaves (c :: r) := by
  intro d hd
  cases hd
  simp only [List.mem_cons, List.not_mem_nil, or_false] at h
  rcases h with rfl | rfl | rfl <;> decide

theorem Leaves.blanks {rest : List Char} (h : Leaves rest) (b : Blanks) : Leaves (b.1 ++ rest) := by
  obtain ⟨b, hb⟩ := b
  cases b with
  | nil => exact h
  | cons c b =>
    intro d hd
    cases hd
    have hc := hb c List.mem_cons_self
    simp only [isSpace, Bool.or_eq_true, decide_eq_true_eq] at hc
    rcases hc with ((rfl | rfl) | rfl) | rfl <;> decide

theorem leaves_nil : Leaves [] := nofun

/-! ## Strings -/

/-- A text as it may stand between quotation marks. -/
inductive SpellsText : List Char → List Char → Prop where
  | nil : SpellsText [] []
  | plain {c : Char} {text s : List Char} (hmark : c ≠ '"') (hslash : c ≠ '\\')
      (hcontrol : isControl c = false) (h : SpellsText text s) : SpellsText (c :: text) (c :: s)
  | short {e c : Char} {text s : List Char} (he : shortEscape? e = some c)
      (h : SpellsText text s) : SpellsText (c :: text) ('\\' :: e :: s)
  | numbered {a b c d : Char} {n : Nat} {text s : List Char} (hn : fourDigits? a b c d = some n)
      (hlow : isLowHalf n = false) (hhigh : isHighHalf n = false) (h : SpellsText text s) :
      SpellsText (Char.ofNat n :: text) ('\\' :: 'u' :: a :: b :: c :: d :: s)
  | pair {a b c d a' b' c' d' : Char} {n n' : Nat} {text s : List Char}
      (hn : fourDigits? a b c d = some n) (hhigh : isHighHalf n = true)
      (hn' : fourDigits? a' b' c' d' = some n') (hlow : isLowHalf n' = true)
      (h : SpellsText text s) :
      SpellsText (paired n n' :: text)
        ('\\' :: 'u' :: a :: b :: c :: d :: '\\' :: 'u' :: a' :: b' :: c' :: d' :: s)

/-- What may stand between quotation marks, whether the halves of pairs meet or not. -/
inductive Body : List Char → Prop where
  | nil : Body []
  | plain {c : Char} {s : List Char} (hmark : c ≠ '"') (hslash : c ≠ '\\')
      (hcontrol : isControl c = false) (h : Body s) : Body (c :: s)
  | short {e c : Char} {s : List Char} (he : shortEscape? e = some c) (h : Body s) :
      Body ('\\' :: e :: s)
  | numbered {a b c d : Char} {n : Nat} {s : List Char} (hn : fourDigits? a b c d = some n)
      (h : Body s) : Body ('\\' :: 'u' :: a :: b :: c :: d :: s)

theorem SpellsText.body {text s : List Char} (h : SpellsText text s) : Body s := by
  induction h with
  | nil => exact .nil
  | plain hmark hslash hcontrol _ ih => exact .plain hmark hslash hcontrol ih
  | short he _ ih => exact .short he ih
  | numbered hn _ _ _ ih => exact .numbered hn ih
  | pair hn _ hn' _ _ ih => exact .numbered hn (.numbered hn' ih)

/-- A string as it is written, and the text that it is, if it is one. -/
structure Marked where
  text : Option String
  body : List Char
  written : Body body
  meant : ∀ t, text = some t ↔ SpellsText t.toList body

/-- A string with its marks, in front of what follows. -/
def Marked.write (s : Marked) (rest : List Char) : List Char := '"' :: (s.body ++ '"' :: rest)

/-! ## Numerals -/

/-- Digits before a point, without a leading zero. -/
structure Whole (ds : List Char) : Prop where
  digits : ∀ c ∈ ds, isDigit c = true
  lead : ds = ['0'] ∨ ds ≠ [] ∧ ds.head? ≠ some '0'

theorem Whole.exists_cons {ds : List Char} (h : Whole ds) :
    ∃ c r, ds = c :: r ∧ isDigit c = true := by
  have hne : ds ≠ [] := by
    rcases h.lead with hzero | hlead
    · rw [hzero]
      exact List.cons_ne_nil _ _
    · exact hlead.1
  obtain ⟨c, r, rfl⟩ := List.exists_cons_of_ne_nil hne
  exact ⟨c, r, rfl, h.digits c List.mem_cons_self⟩

theorem whole_toDigits (n : Nat) : Whole (Nat.toDigits 10 n) where
  digits _ := isDigit_of_mem_toDigits
  lead := by
    by_cases hzero : n = 0
    · subst hzero
      exact .inl rfl
    · exact .inr ⟨Nat.toDigits_ne_nil, toDigits_head hzero⟩

inductive Fraction : List Char → Prop where
  | none : Fraction []
  | digits {ds : List Char} (hne : ds ≠ []) (h : ∀ c ∈ ds, isDigit c = true) :
      Fraction ('.' :: ds)

inductive Exponent : List Char → Prop where
  | none : Exponent []
  | digits {mark : Char} {sign ds : List Char} (hmark : mark ∈ ['e', 'E'])
      (hsign : sign ∈ [[], ['+'], ['-']]) (hne : ds ≠ []) (h : ∀ c ∈ ds, isDigit c = true) :
      Exponent (mark :: (sign ++ ds))

/-! ## Documents -/

/-- A value inside a document, with the blanks around it. -/
structure Item where
  before : Blanks
  meaning : Meaning
  text : List Char
  behind : Blanks

def Item.write (i : Item) (rest : List Char) : List Char :=
  i.before.1 ++ (i.text ++ (i.behind.1 ++ rest))

/-- A name and a value inside a document. -/
structure Member where
  before : Blanks
  name : Marked
  behind : Blanks
  value : Item

/-- What stands behind the name of a member. -/
def Member.tail (m : Member) (rest : List Char) : List Char :=
  m.behind.1 ++ ':' :: m.value.write rest

def Member.write (m : Member) (rest : List Char) : List Char :=
  m.before.1 ++ m.name.write (m.tail rest)

def Member.meaning (m : Member) : Option String × Meaning := (m.name.text, m.value.meaning)

/-- Parts one after the other, a separator before each but the first. -/
def sequence (write : α → List Char → List Char) : Bool → List α → List Char → List Char
  | _, [], rest => rest
  | true, part :: parts, rest => write part (sequence write false parts rest)
  | false, part :: parts, rest => ',' :: write part (sequence write false parts rest)

/-- A text is a document that means this. -/
inductive Spells : Meaning → List Char → Prop where
  | null : Spells .null ['n', 'u', 'l', 'l']
  | yes : Spells (.boolean true) ['t', 'r', 'u', 'e']
  | no : Spells (.boolean false) ['f', 'a', 'l', 's', 'e']
  | natural {ds : List Char} (h : Whole ds) : Spells (.natural (Nat.ofDigitChars 10 ds 0)) ds
  | number {sign whole fraction exponent : List Char} (hsign : sign ∈ [[], ['-']])
      (hwhole : Whole whole) (hfraction : Fraction fraction) (hexponent : Exponent exponent)
      (hother : sign ≠ [] ∨ fraction ≠ [] ∨ exponent ≠ []) :
      Spells .number (sign ++ (whole ++ (fraction ++ exponent)))
  | string (s : Marked) : Spells (.string s.text) (s.write [])
  | list {items : List Item} (behind : Blanks) (h : ∀ i ∈ items, Spells i.meaning i.text) :
      Spells (.list (items.map (·.meaning)))
        ('[' :: sequence Item.write true items (behind.1 ++ [']']))
  | object {members : List Member} (behind : Blanks)
      (h : ∀ m ∈ members, Spells m.value.meaning m.value.text) :
      Spells (.object (members.map (·.meaning)))
        ('\x7b' :: sequence Member.write true members (behind.1 ++ ['\x7d']))

theorem Spells.of_string {text : Option String} {s : List Char} (h : Spells (.string text) s) :
    ∃ w : Marked, w.text = text ∧ s = w.write [] := by
  generalize hm : Meaning.string text = m at h
  cases h <;> cases hm
  exact ⟨_, rfl, rfl⟩

theorem Spells.of_natural {n : Nat} {s : List Char} (h : Spells (.natural n) s) :
    Whole s ∧ n = Nat.ofDigitChars 10 s 0 := by
  cases h with
  | natural h => exact ⟨h, rfl⟩

theorem Spells.of_object {ms : List (Option String × Meaning)} {s : List Char}
    (h : Spells (.object ms) s) :
    ∃ (members : List Member) (behind : Blanks), ms = members.map (·.meaning) ∧
      (∀ m ∈ members, Spells m.value.meaning m.value.text) ∧
      s = '\x7b' :: sequence Member.write true members (behind.1 ++ ['\x7d']) := by
  cases h with
  | object behind h => exact ⟨_, behind, rfl, h, rfl⟩

/-! ## Parts and what follows them -/

theorem Marked.write_append (s : Marked) (r u : List Char) :
    s.write r ++ u = s.write (r ++ u) := by
  simp only [Marked.write, List.cons_append, List.append_assoc]

theorem Item.write_append (i : Item) (r u : List Char) : i.write r ++ u = i.write (r ++ u) := by
  simp only [Item.write, List.append_assoc]

theorem Member.write_append (m : Member) (r u : List Char) :
    m.write r ++ u = m.write (r ++ u) := by
  simp only [Member.write, Member.tail, List.append_assoc, Marked.write_append, List.cons_append,
    Item.write_append]

theorem Member.readColon_tail (m : Member) (rest : List Char) :
    readColon (m.tail rest) = .ok (m.value.write rest) := by
  rw [readColon, Member.tail, skipSpace_blanks, skipSpace_of_not_space (by decide)]
  rfl

variable {write : α → List Char → List Char} {parts : List α}

theorem sequence_append (hwrite : ∀ part r u, write part r ++ u = write part (r ++ u))
    (first : Bool) (r u : List Char) :
    sequence write first parts r ++ u = sequence write first parts (r ++ u) := by
  induction parts generalizing first with
  | nil => cases first <;> rfl
  | cons part parts ih =>
    cases first with
    | true =>
      show write part (sequence write false parts r) ++ u = _
      rw [hwrite, ih]
      rfl
    | false =>
      show ',' :: (write part (sequence write false parts r) ++ u) = _
      rw [hwrite, ih]
      rfl

/-- Behind a part stands a separator or what closes the row, and neither goes on with a numeral. -/
theorem leaves_sequence {rest : List Char} (h : Leaves rest) :
    Leaves (sequence write false parts rest) := by
  cases parts with
  | nil => exact h
  | cons part parts => exact leaves_cons (by decide) _

/-- A value begins with a character that begins no other part of a document. -/
theorem Spells.exists_cons {m : Meaning} {s : List Char} (h : Spells m s) :
    ∃ c r, s = c :: r ∧ isSpace c = false ∧ c ≠ ']' := by
  have hdigit : ∀ {c : Char}, isDigit c = true → isSpace c = false ∧ c ≠ ']' := by
    intro c hc
    refine ⟨isSpace_of_isDigit hc, ?_⟩
    rintro rfl
    exact absurd hc (by decide)
  cases h with
  | null => exact ⟨_, _, rfl, by decide⟩
  | yes => exact ⟨_, _, rfl, by decide⟩
  | no => exact ⟨_, _, rfl, by decide⟩
  | natural h =>
    obtain ⟨c, r, rfl, hc⟩ := h.exists_cons
    exact ⟨c, r, rfl, hdigit hc⟩
  | @number sign whole fraction exponent hsign hwhole =>
    obtain ⟨c, r, rfl, hc⟩ := hwhole.exists_cons
    rw [List.mem_pair] at hsign
    rcases hsign with rfl | rfl
    · exact ⟨_, _, rfl, hdigit hc⟩
    · exact ⟨_, _, rfl, by decide⟩
  | string s => exact ⟨_, _, rfl, by decide⟩
  | list => exact ⟨_, _, rfl, by decide⟩
  | object => exact ⟨_, _, rfl, by decide⟩

end PromptRunner.Json
