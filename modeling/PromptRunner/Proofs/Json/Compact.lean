import PromptRunner.Json.Value
import PromptRunner.Proofs.Json.Reading

/-!
# A document in one line is read again

`Value.compact` writes a document without blanks, and `readValue` reads it. What comes back is the
document, but for its numbers: a number of thirty-two bits is written with few digits and read with
sixty-four bits, and a number past every magnitude is written as null. `ReadAs d v w` says, without
a text, that `v` comes back as `w`; the numbers aside it is equality, down to `d` brackets.

The reader has fuel, and each call spends one unit. So the induction carries a budget: twice the
length of a part is enough for it, whatever follows, since a part that is a value has at least one
character and takes at most two calls.

At the end stands what a document says under a name. `Value.get` answers null also where there is
nothing; `Value.member?` tells the two apart.
-/

namespace PromptRunner.Json

open PromptRunner.Number

variable {d : Nat}

/-! ## Strings -/

theorem stringText_append (s : String) (r : List Char) :
    stringText s ++ r = '"' :: (escaped s.toList ++ '"' :: r) := by
  simp [stringText]

theorem readKey_stringText (name : String) (r : List Char) :
    readKey (stringText name ++ r) = .ok (some name, r) := by
  rw [stringText_append, readKey, if_pos rfl, readString_escaped]
  simp

/-! ## Numbers -/

/-- A number whose text is read as a value, wherever it stands. -/
def Number.ReadAs (n : Number) (w : Value) : Prop :=
  ∀ fuel depth rest, Leaves rest → readValueSteps (fuel + 1) depth (n.text ++ rest) = .ok (w, rest)

theorem readValueSteps_digits {c : Char} (hc : isDigit c = true) (fuel depth : Nat)
    (r : List Char) :
    readValueSteps (fuel + 1) depth (c :: r) =
      (readNumber false (c :: r)).map fun (n, r) => (.number n, r) := by
  have hne : ∀ d, isDigit d = false → c ≠ d := fun d hd => ne_of_isDigit hc hd
  rw [readValueSteps, skipSpace_of_not_space (isSpace_of_isDigit hc)]
  simp only [hne 'n' rfl, hne 't' rfl, hne 'f' rfl, hne '-' rfl, hc, if_false, if_true]

/-- A numeral with or without a sign is read as its value. -/
theorem readAs_written {n : Number} {numeral : Numeral} {negative : Bool} {y : Number}
    (htext : n.text = if negative then '-' :: numeral.written else numeral.written)
    (hplain : numeral.Plain) (hvalue : numeral.value negative = .ok y) :
    n.ReadAs (.number y) := by
  intro fuel depth rest hrest
  have hread : readNumber negative (numeral.written ++ rest) = .ok (y, rest) := by
    simp only [readNumber, scanNumeral_written hplain hrest, hvalue]
  rw [htext]
  cases negative with
  | true =>
    have hminus : readValueSteps (fuel + 1) depth ('-' :: (numeral.written ++ rest)) =
        (readNumber true (numeral.written ++ rest)).map fun (n, r) => (.number n, r) := by
      rw [readValueSteps, skipSpace_of_not_space (by decide)]
      rfl
    rw [if_pos rfl, List.cons_append, hminus, hread]
    rfl
  | false =>
    obtain ⟨c, r, hc, hdigit⟩ := hplain.exists_cons
    rw [if_neg Bool.false_ne_true]
    rw [hc, List.cons_append] at hread ⊢
    rw [readValueSteps_digits hdigit, hread]
    rfl

theorem readAs_natural {n : Nat} (h : n ≤ natural64Max) :
    (Number.natural n).ReadAs (.number (.natural n)) := by
  have hdigits : Nat.ofDigitChars 10 (Nat.toDigits 10 n) 0 = n := Nat.ofDigitChars_ten_toDigits
  have hwhole := whole_toDigits n
  have hplain : Numeral.Plain ⟨Nat.toDigits 10 n, [], none⟩ :=
    ⟨hwhole.digits, hwhole.lead, nofun, nofun⟩
  have hvalue : Numeral.value false ⟨Nat.toDigits 10 n, [], none⟩ = .ok (.natural n) := by
    rw [value_of_digits (by rw [hdigits]; exact h), hdigits]
  refine readAs_written ?_ hplain hvalue
  simp [Number.text, Numeral.written, exponentText]

/-- A number that is written as a numeral is read as a number with the same sign. -/
theorem exists_readAs {f : Format} {layout : Layout} {n : Number} {negative : Bool} {x : Magnitude}
    (htext : n.text = ((Binary.finite negative x).text? f layout).getD "null".toList)
    (h : ∃ numeral : Numeral, numeral.Plain ∧
      (if x.mantissa = 0 then "0.0".toList else layout.text (shortest f x)) = numeral.written ∧
      ∀ negative, ∃ y, numeral.value negative = .ok (.real (.finite negative y))) :
    ∃ y, n.ReadAs (.number (.real (.finite negative y))) := by
  obtain ⟨numeral, hplain, hbody, hvalue⟩ := h
  obtain ⟨y, hy⟩ := hvalue negative
  refine ⟨y, readAs_written ?_ hplain hy⟩
  simp only [htext, Binary.text?, hbody, Option.getD_some]

theorem readAs_null {n : Number} (htext : n.text = "null".toList) : n.ReadAs .null := by
  intro fuel depth rest _
  rw [htext, readValueSteps]
  rfl

theorem exists_readAs_real (negative : Bool) {x : Magnitude} (hx : x.Fits binary64) :
    ∃ y, (Number.real (.finite negative x)).ReadAs (.number (.real (.finite negative y))) :=
  exists_readAs rfl (exists_numeral hx)

/-- A magnitude of thirty-two bits, and half a place more, is far below the greatest number. -/
theorem single_lt {x : Magnitude} (hx : x.Fits binary32) :
    ((x.mantissa : ℚ) + 1 / 2) * 2 ^ x.exponent < 2 ^ 128 := by
  have hmantissa : (x.mantissa : ℚ) + 1 ≤ 2 ^ 24 := by exact_mod_cast hx.mantissa_lt
  have hpow : (2 : ℚ) ^ x.exponent ≤ 2 ^ (104 : Int) :=
    zpow_le_zpow_right₀ one_le_two hx.le_greatest
  have hpos : (0 : ℚ) < 2 ^ x.exponent := zpow_pos two_pos _
  calc ((x.mantissa : ℚ) + 1 / 2) * 2 ^ x.exponent
      < 2 ^ 24 * 2 ^ x.exponent := by gcongr; linarith
    _ ≤ 2 ^ 24 * 2 ^ (104 : Int) := by gcongr
    _ = 2 ^ 128 := by norm_num

theorem exists_readAs_single (negative : Bool) {x : Magnitude} (hx : x.Fits binary32) :
    ∃ y, (Number.single (.finite negative x)).ReadAs (.number (.real (.finite negative y))) := by
  have hamplest : (shortest binary32 x).value ≤ amplest := by
    calc (shortest binary32 x).value
        ≤ (x.mantissa + 1 / 2) * 2 ^ x.exponent := shortest_value_le binary32 x
      _ ≤ 2 ^ ((128 : Nat) : Int) := le_of_le_of_eq (single_lt hx).le (zpow_natCast 2 128).symm
      _ ≤ 2 ^ (971 : Int) := zpow_le_zpow_right₀ one_le_two (by decide)
      _ ≤ amplest := le_mul_of_one_le_left (zpow_pos two_pos _).le (by norm_num)
  refine exists_readAs rfl (exists_numeral_of (by decide) ?_)
  exact exists_value_laidOut (by decide) hamplest

/-- A number of thirty-two bits is one of sixty-four bits. -/
theorem convert_fits (negative : Bool) {x : Magnitude} (hx : x.Fits binary32) :
    ∃ y, binary64.convert (.finite negative x) = .finite negative y ∧ y.Fits binary64 := by
  obtain ⟨hden, hvalue⟩ := x.ratio_value
  have hlt : (x.ratio.1 : ℚ) / x.ratio.2 < (2 ^ 53 - 1 / 2) * 2 ^ (971 : Int) := by
    have hsmall : x.value < ((2 ^ 128 : Nat) : ℚ) := by
      refine lt_of_le_of_lt ?_ (lt_of_lt_of_eq (single_lt hx) (by norm_num))
      have hpos : (0 : ℚ) < 2 ^ x.exponent := zpow_pos two_pos _
      rw [Magnitude.value]
      gcongr
      linarith
    rw [hvalue]
    exact lt_trans hsmall (cast_lt_greatest (by decide +kernel))
  obtain ⟨y, hy⟩ := exists_round64 hden.ne' hlt
  refine ⟨y, ?_, Format.fits_of_round binary64_width binary64_least_le_greatest hden.ne' hy⟩
  simp only [Format.convert, hy]

/-! ## Documents -/

/-- What is written as a document is read as one, with at most so many brackets around each
other. -/
inductive ReadAs : Nat → Value → Value → Prop where
  | null {d : Nat} : ReadAs d .null .null
  | boolean {d : Nat} (b : Bool) : ReadAs d (.boolean b) (.boolean b)
  | string {d : Nat} (s : String) : ReadAs d (.string s) (.string s)
  | number {d : Nat} {n : Number} {w : Value} (h : n.ReadAs w) : ReadAs d (.number n) w
  | list {d : Nat} {items : List (Value × Value)} (h : ∀ i ∈ items, ReadAs d i.1 i.2) :
      ReadAs (d + 1) (.list (items.map (·.1))) (.list (items.map (·.2)))
  | object {d : Nat} {members : List (String × Value × Value)}
      (h : ∀ m ∈ members, ReadAs d m.2.1 m.2.2) :
      ReadAs (d + 1) (.object (members.map fun m => (m.1, m.2.1)))
        (.object (members.map fun m => (m.1, m.2.2)))

theorem ReadAs.list_self {items : List Value} (h : ∀ v ∈ items, ReadAs d v v) :
    ReadAs (d + 1) (.list items) (.list items) := by
  have hpairs : ∀ i ∈ items.map fun v => (v, v), ReadAs d i.1 i.2 := by
    intro i hi
    obtain ⟨v, hv, rfl⟩ := List.mem_map.1 hi
    exact h v hv
  simpa only [List.map_map, Function.comp_def, List.map_id'] using ReadAs.list hpairs

/-- Two rows of members of which each comes back as the one at its place. -/
def MembersReadAs (d : Nat) : List (String × Value) → List (String × Value) → Prop :=
  List.Forall₂ fun a b => a.1 = b.1 ∧ ReadAs d a.2 b.2

theorem MembersReadAs.nil : MembersReadAs d [] [] := List.Forall₂.nil

theorem MembersReadAs.cons {name : String} {v w : Value} {ms ms' : List (String × Value)}
    (h : ReadAs d v w) (hms : MembersReadAs d ms ms') :
    MembersReadAs d ((name, v) :: ms) ((name, w) :: ms') :=
  List.Forall₂.cons ⟨rfl, h⟩ hms

theorem MembersReadAs.append {a a' b b' : List (String × Value)} (ha : MembersReadAs d a a')
    (hb : MembersReadAs d b b') : MembersReadAs d (a ++ b) (a' ++ b') :=
  List.rel_append ha hb

theorem ReadAs.of_members {ms ms' : List (String × Value)} (h : MembersReadAs d ms ms') :
    ReadAs (d + 1) (.object ms) (.object ms') := by
  obtain ⟨members, hmembers, rfl, rfl⟩ : ∃ members : List (String × Value × Value),
      (∀ m ∈ members, ReadAs d m.2.1 m.2.2) ∧ (members.map fun m => (m.1, m.2.1)) = ms ∧
        (members.map fun m => (m.1, m.2.2)) = ms' := by
    unfold MembersReadAs at h
    induction h with
    | nil => exact ⟨[], nofun, rfl, rfl⟩
    | @cons a b ms ms' hab _ ih =>
      obtain ⟨members, hmembers, rfl, rfl⟩ := ih
      obtain ⟨hname, hvalue⟩ := hab
      refine ⟨(a.1, a.2, b.2) :: members, List.forall_mem_cons.2 ⟨hvalue, hmembers⟩, rfl, ?_⟩
      rw [List.map_cons, hname]
  exact ReadAs.object hmembers

theorem Number.exists_text (n : Number) :
    ∃ c r, n.text = c :: r ∧ isSpace c = false ∧ c ≠ ']' := by
  have hdigit : ∀ {c : Char}, isDigit c = true → isSpace c = false ∧ c ≠ ']' := fun hc =>
    ⟨isSpace_of_isDigit hc, ne_of_isDigit hc (by decide)⟩
  have hbinary : ∀ (f : Format) (layout : Layout) (x : Binary),
      ∃ c r, (x.text? f layout).getD "null".toList = c :: r ∧ isSpace c = false ∧ c ≠ ']' := by
    intro f layout x
    match x with
    | .infinite _ => exact ⟨_, _, rfl, by decide⟩
    | .finite true x => exact ⟨_, _, rfl, by decide⟩
    | .finite false x =>
      by_cases hzero : x.mantissa = 0
      · refine ⟨'0', ['.', '0'], ?_, by decide⟩
        simp [Binary.text?, hzero]
      · obtain ⟨c, r, hc, hd⟩ := (laidOut_plain layout (shortest f x)).exists_cons
        refine ⟨c, r, ?_, hdigit hd⟩
        rw [← hc, ← text_eq_written]
        simp [Binary.text?, hzero]
  cases n with
  | natural n =>
    obtain ⟨c, r, hc⟩ := List.exists_cons_of_ne_nil (Nat.toDigits_ne_nil : Nat.toDigits 10 n ≠ [])
    have hmem : c ∈ Nat.toDigits 10 n := by rw [hc]; exact List.mem_cons_self
    exact ⟨c, r, hc, hdigit (isDigit_of_mem_toDigits hmem)⟩
  | negative n => exact ⟨_, _, rfl, by decide⟩
  | real x => exact hbinary binary64 layout64 x
  | single x => exact hbinary binary32 layout32 x

/-- A value begins with a character that is no blank and closes no list. -/
theorem Value.exists_compact (v : Value) :
    ∃ c r, v.compact = c :: r ∧ isSpace c = false ∧ c ≠ ']' := by
  cases v with
  | number n => exact n.exists_text
  | boolean b => cases b <;> exact ⟨_, _, rfl, by decide⟩
  | null => exact ⟨_, _, rfl, by decide⟩
  | string s => exact ⟨_, _, rfl, by decide⟩
  | list items => exact ⟨_, _, rfl, by decide⟩
  | object members => exact ⟨_, _, rfl, by decide⟩

theorem Value.length_compact_pos (v : Value) : 0 < v.compact.length := by
  obtain ⟨c, r, hc, -⟩ := v.exists_compact
  rw [hc, List.length_cons]
  omega

theorem skipSpace_compact (v : Value) (r : List Char) :
    skipSpace (v.compact ++ r) = v.compact ++ r := by
  obtain ⟨c, s, hc, hspace, -⟩ := v.exists_compact
  rw [hc, List.cons_append, skipSpace_of_not_space hspace]

theorem nextElement_compact (first : Bool) (v : Value) (r : List Char) :
    nextElement first ((if first then [] else [',']) ++ (v.compact ++ r)) =
      .ok (true, v.compact ++ r) := by
  have hskip := skipSpace_compact v r
  obtain ⟨c, s, hc, hspace, hclose⟩ := v.exists_compact
  rw [hc, List.cons_append] at hskip ⊢
  cases first with
  | true =>
    rw [if_pos rfl, List.nil_append, nextElement, hskip]
    simp only [if_neg hclose, if_true]
  | false =>
    rw [if_neg Bool.false_ne_true, List.singleton_append, nextElement,
      skipSpace_of_not_space (by decide)]
    simp only [hskip, if_neg hclose, if_false, if_true, Char.reduceEq, Bool.false_eq_true]

theorem nextMember_compact (first : Bool) (name : String) (r : List Char) :
    nextMember first ((if first then [] else [',']) ++ (stringText name ++ r)) =
      .ok (some name, r) := by
  have hskip : skipSpace (stringText name ++ r) = stringText name ++ r := by
    rw [stringText_append]
    exact skipSpace_of_not_space (by decide) _
  have hkey := readKey_stringText name r
  cases first with
  | true =>
    rw [if_pos rfl, List.nil_append, nextMember, hskip]
    rw [stringText_append] at hkey ⊢
    exact hkey
  | false =>
    rw [if_neg Bool.false_ne_true, List.singleton_append, nextMember,
      skipSpace_of_not_space (by decide)]
    simp only [hskip, if_false, if_true, Char.reduceEq, Bool.false_eq_true]
    exact hkey

/-- A value is read from its text with a budget of twice its length. -/
def Reread (d : Nat) (v w : Value) : Prop :=
  ∀ fuel rest, 2 * v.compact.length ≤ fuel → Leaves rest →
    readValueSteps fuel d (v.compact ++ rest) = .ok (w, rest)

/-- A value without brackets takes one call. -/
theorem reread_of_call {v w : Value} (h : ∀ fuel rest, Leaves rest →
    readValueSteps (fuel + 1) d (v.compact ++ rest) = .ok (w, rest)) : Reread d v w := by
  intro fuel rest hfuel hrest
  have hpos := v.length_compact_pos
  obtain ⟨fuel, rfl⟩ : ∃ k, fuel = k + 1 := ⟨fuel - 1, by omega⟩
  exact h fuel rest hrest

theorem readItems_compact {items : List (Value × Value)}
    (hitems : ∀ i ∈ items, Reread d i.1 i.2) (first : Bool) (fuel : Nat) (rest : List Char)
    (hfuel : 2 * (compactItems first (items.map (·.1))).length + 1 ≤ fuel) :
    readItems fuel d first (compactItems first (items.map (·.1)) ++ ']' :: rest) =
      .ok (items.map (·.2), rest) := by
  induction items generalizing first fuel with
  | nil =>
    obtain ⟨fuel, rfl⟩ : ∃ k, fuel = k + 1 := ⟨fuel - 1, by omega⟩
    rfl
  | cons item items ih =>
    obtain ⟨hitem, hrow⟩ := List.forall_mem_cons.1 hitems
    have htext : compactItems first ((item :: items).map (·.1)) ++ ']' :: rest =
        (if first then [] else [',']) ++ (item.1.compact ++
          (compactItems false (items.map (·.1)) ++ ']' :: rest)) := by
      simp [compactItems]
    have hlength : (compactItems first ((item :: items).map (·.1))).length =
        (if first then [] else [',']).length + item.1.compact.length +
          (compactItems false (items.map (·.1))).length := by
      simp [compactItems, Nat.add_assoc]
    have hpos := item.1.length_compact_pos
    obtain ⟨fuel, rfl⟩ : ∃ k, fuel = k + 1 := ⟨fuel - 1, by omega⟩
    have hleaves : Leaves (compactItems false (items.map (·.1)) ++ ']' :: rest) := by
      cases items with
      | nil => exact leaves_cons (by decide) _
      | cons next items => exact leaves_cons (by decide) _
    have hread := hitem fuel _ (by omega) hleaves
    have hlater := ih hrow false fuel (by omega)
    rw [htext]
    simp only [readItems, nextElement_compact, hread, hlater]
    rfl

theorem readMembers_compact {members : List (String × Value × Value)}
    (hmembers : ∀ m ∈ members, Reread d m.2.1 m.2.2) (first : Bool) (fuel : Nat)
    (rest : List Char)
    (hfuel : 2 * (compactMembers first (members.map fun m => (m.1, m.2.1))).length + 1 ≤ fuel) :
    readMembers fuel d first
        (compactMembers first (members.map fun m => (m.1, m.2.1)) ++ '\x7d' :: rest) =
      .ok (members.map fun m => (m.1, m.2.2), rest) := by
  induction members generalizing first fuel with
  | nil =>
    obtain ⟨fuel, rfl⟩ : ∃ k, fuel = k + 1 := ⟨fuel - 1, by omega⟩
    rfl
  | cons member members ih =>
    obtain ⟨hmember, hrow⟩ := List.forall_mem_cons.1 hmembers
    obtain ⟨name, v, w⟩ := member
    have htext : compactMembers first (((name, v, w) :: members).map fun m => (m.1, m.2.1)) ++
        '\x7d' :: rest = (if first then [] else [',']) ++ (stringText name ++ (':' :: (v.compact ++
          (compactMembers false (members.map fun m => (m.1, m.2.1)) ++ '\x7d' :: rest)))) := by
      simp [compactMembers]
    have hlength :
        (compactMembers first (((name, v, w) :: members).map fun m => (m.1, m.2.1))).length =
        (if first then [] else [',']).length + (stringText name).length + 1 + v.compact.length +
          (compactMembers false (members.map fun m => (m.1, m.2.1))).length := by
      simp only [compactMembers, List.map_cons, List.length_append, List.length_cons]
      omega
    have hpos := v.length_compact_pos
    obtain ⟨fuel, rfl⟩ : ∃ k, fuel = k + 1 := ⟨fuel - 1, by omega⟩
    have hleaves : Leaves
        (compactMembers false (members.map fun m => (m.1, m.2.1)) ++ '\x7d' :: rest) := by
      cases members with
      | nil => exact leaves_cons (by decide) _
      | cons next members => exact leaves_cons (by decide) _
    have hcolon : ∀ r, readColon (':' :: r) = .ok r := fun _ => rfl
    have hread := hmember fuel _ (show 2 * v.compact.length ≤ fuel by omega) hleaves
    have hlater := ih hrow false fuel (by omega)
    rw [htext]
    simp only [readMembers, nextMember_compact, hcolon, hread, hlater]
    rfl

theorem ReadAs.reread {v w : Value} (h : ReadAs d v w) : Reread d v w := by
  -- a bracket is one character and one call, so twice the length is enough at every depth
  induction h with
  | null => exact reread_of_call fun _ _ _ => rfl
  | boolean b => cases b <;> exact reread_of_call fun _ _ _ => rfl
  | @string d s =>
    refine reread_of_call fun fuel rest _ => ?_
    show readValueSteps (fuel + 1) d (stringText s ++ rest) = _
    rw [stringText_append, readValueSteps, skipSpace_of_not_space (by decide)]
    show (readString (escaped s.toList ++ '"' :: rest)).map _ = _
    rw [readString_escaped]
    show Except.ok (Value.string (String.ofList s.toList), rest) = _
    rw [String.ofList_toList]
  | number h => exact reread_of_call fun fuel rest hrest => h fuel _ rest hrest
  | @list d items _ ih =>
    intro fuel rest hfuel _
    have htext : (Value.list (items.map (·.1))).compact ++ rest =
        '[' :: (compactItems true (items.map (·.1)) ++ ']' :: rest) := by
      simp [Value.compact]
    have hlength : (Value.list (items.map (·.1))).compact.length =
        (compactItems true (items.map (·.1))).length + 2 := by
      simp [Value.compact]
    obtain ⟨fuel, rfl⟩ : ∃ k, fuel = k + 1 := ⟨fuel - 1, by omega⟩
    have hread := readItems_compact ih true fuel rest (by omega)
    rw [htext, readValueSteps, skipSpace_of_not_space (by decide)]
    show (readItems fuel d true _).map _ = _
    rw [hread]
    rfl
  | @object d members _ ih =>
    intro fuel rest hfuel _
    have htext : (Value.object (members.map fun m => (m.1, m.2.1))).compact ++ rest =
        '\x7b' :: (compactMembers true (members.map fun m => (m.1, m.2.1)) ++ '\x7d' :: rest) := by
      simp [Value.compact]
    have hlength : (Value.object (members.map fun m => (m.1, m.2.1))).compact.length =
        (compactMembers true (members.map fun m => (m.1, m.2.1))).length + 2 := by
      simp [Value.compact]
    obtain ⟨fuel, rfl⟩ : ∃ k, fuel = k + 1 := ⟨fuel - 1, by omega⟩
    have hread := readMembers_compact ih true fuel rest (by omega)
    rw [htext, readValueSteps, skipSpace_of_not_space (by decide)]
    show (readMembers fuel d true _).map _ = _
    rw [hread]
    rfl

/-- A document in one line is parsed to what it is read as. -/
theorem parse_compact {v w : Value} (h : ReadAs depthLimit v w) :
    Value.parse (String.ofList v.compact) = .ok w := by
  have hread : readValue depthLimit v.compact = .ok (w, []) := by
    have hall := h.reread (2 * v.compact.length + 2) [] (by omega) leaves_nil
    rwa [List.append_nil] at hall
  simp only [Value.parse, String.toList_ofList, readWhole, hread, skipSpace_nil]

/-! ## Members -/

/-- The last member of a name, if an object has one. -/
def Value.member? (v : Value) (name : String) : Option Value :=
  match v with
  | .object members => members.reverse.lookup name
  | _ => none

theorem Value.get_eq (v : Value) (name : String) : v.get name = (v.member? name).getD .null := by
  cases v <;> rfl

theorem Value.item_eq (v : Value) (i : Nat) :
    v.item i = (v.items?.bind (·[i]?)).getD .null := by
  cases v <;> rfl

@[simp] theorem Value.member?_nil (name : String) : (Value.object []).member? name = none := rfl

/-- A member counts only if no later one has its name. -/
@[simp] theorem Value.member?_cons (n : String) (v : Value) (ms : List (String × Value))
    (name : String) :
    (Value.object ((n, v) :: ms)).member? name =
      ((Value.object ms).member? name).or (if name = n then some v else none) := by
  have hfirst : [(n, v)].lookup name = if name = n then some v else none := by
    by_cases h : name = n
    · rw [h, List.lookup_cons_self, if_pos rfl]
    · rw [List.lookup_cons, beq_eq_false_iff_ne.2 h, if_neg h]
      rfl
  simp only [member?, List.reverse_cons, List.lookup_append, hfirst]

@[simp] theorem Value.member?_append (a b : List (String × Value)) (name : String) :
    (Value.object (a ++ b)).member? name =
      ((Value.object b).member? name).or ((Value.object a).member? name) := by
  simp only [member?, List.reverse_append, List.lookup_append]

/-! What is missing is null to the reader, and in null there is nothing. -/

variable (o : Option Value)

theorem Value.member?_getD (name : String) :
    (o.getD .null).member? name = o.bind (·.member? name) := by
  cases o <;> rfl

theorem Value.items?_getD : (o.getD .null).items? = o.bind Value.items? := by
  cases o <;> rfl

theorem Value.string?_getD : (o.getD .null).string? = o.bind Value.string? := by
  cases o <;> rfl

end PromptRunner.Json
