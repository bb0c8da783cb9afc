import PromptRunner.Proofs.Json.Skipped

/-!
# Which texts are values

The reader of values of any shape takes less than the grammar allows: brackets no deeper than a
limit, numbers of a magnitude that a floating-point number has, and strings that are texts.
`Denotes` is the grammar with these limits, constructor by constructor, and with the value that each
document has. What the reader passes is such a document (`of_readValue`), and it reads every such
document (`Denotes.reads`).

The two directions are two inductions. What the reader has passed follows its calls, with one
statement for each of the three functions; that it reads every document follows the grammar, with
the budget of calls bounded by the length of the text.
-/

namespace PromptRunner.Json

variable {d : Nat} {s r t : List Char} {m : Meaning} {v : Value} {first : Bool}

/-- A document, by its meaning and its text, is a value at most so many brackets deep. -/
inductive Denotes : Nat → Meaning → List Char → Value → Prop where
  | null {d : Nat} : Denotes d .null ['n', 'u', 'l', 'l'] .null
  | yes {d : Nat} : Denotes d (.boolean true) ['t', 'r', 'u', 'e'] (.boolean true)
  | no {d : Nat} : Denotes d (.boolean false) ['f', 'a', 'l', 's', 'e'] (.boolean false)
  | natural {d : Nat} {ds : List Char} {n : Number} (h : Whole ds)
      (hvalue : (numeralOf ds [] []).value false = .ok n) :
      Denotes d (.natural (Nat.ofDigitChars 10 ds 0)) ds (.number n)
  | number {d : Nat} {sign whole fraction exponent : List Char} {n : Number}
      (hsign : sign ∈ [[], ['-']]) (hwhole : Whole whole) (hfraction : Fraction fraction)
      (hexponent : Exponent exponent) (hother : sign ≠ [] ∨ fraction ≠ [] ∨ exponent ≠ [])
      (hvalue : (numeralOf whole fraction exponent).value (!sign.isEmpty) = .ok n) :
      Denotes d .number (sign ++ (whole ++ (fraction ++ exponent))) (.number n)
  | string {d : Nat} {text : String} (w : Marked) (h : w.text = some text) :
      Denotes d (.string (some text)) (w.write []) (.string text)
  | list {d : Nat} {items : List (Item × Value)} (behind : Blanks)
      (h : ∀ i ∈ items, Denotes d i.1.meaning i.1.text i.2) :
      Denotes (d + 1) (.list ((items.map (·.1)).map (·.meaning)))
        ('[' :: sequence Item.write true (items.map (·.1)) (behind.1 ++ [']']))
        (.list (items.map (·.2)))
  | object {d : Nat} {members : List (Member × String × Value)} (behind : Blanks)
      (hname : ∀ m ∈ members, m.1.name.text = some m.2.1)
      (h : ∀ m ∈ members, Denotes d m.1.value.meaning m.1.value.text m.2.2) :
      Denotes (d + 1) (.object ((members.map (·.1)).map (·.meaning)))
        ('\x7b' :: sequence Member.write true (members.map (·.1)) (behind.1 ++ ['\x7d']))
        (.object (members.map (·.2)))

theorem Denotes.spells (h : Denotes d m t v) : Spells m t := by
  induction h with
  | null => exact .null
  | yes => exact .yes
  | no => exact .no
  | natural h => exact .natural h
  | number hsign hwhole hfraction hexponent hother =>
    exact .number hsign hwhole hfraction hexponent hother
  | string w h =>
    rw [← h]
    exact .string w
  | list behind _ ih => exact .list behind (List.forall_mem_map.2 ih)
  | object behind _ _ ih => exact .object behind (List.forall_mem_map.2 ih)

/-- Only whole digits without a sign, and few enough of them, are read as a natural number. -/
theorem of_value_natural {x : Numeral} {negative : Bool} {n : Nat}
    (h : x.value negative = .ok (.natural n)) :
    x.fraction = [] ∧ x.exponent = none ∧ negative = false ∧
      n = Nat.ofDigitChars 10 x.whole 0 ∧ n ≤ natural64Max := by
  obtain ⟨whole, fraction, exponent⟩ := x
  cases exponent with
  | some e =>
    simp only [Numeral.value] at h
    split at h
    · split at h <;> cases h
    · split_ifs at h
      cases h
  | none =>
    cases fraction with
    | cons =>
      simp only [Numeral.value] at h
      split at h <;> cases h
    | nil =>
      obtain ⟨k, hk, hspec, hle⟩ := accumulate_spec natural64Max whole (Nat.zero_le natural64Max)
      simp only [Numeral.value, Numeral.significand, hspec, accumulate] at h
      split_ifs at h with hplace hsign hzero
      · cases h
        have hlength : whole.length ≤ k := by
          simp only [List.length_drop, List.length_nil] at hplace
          omega
        rw [List.take_of_length_le hlength] at hle ⊢
        exact ⟨rfl, rfl, by simpa using hsign, rfl, hle⟩
      · split at h <;> cases h
      · cases h
      · split at h <;> cases h

theorem of_numeralOf_natural {whole fraction exponent : List Char} {negative : Bool} {n : Nat}
    (hfraction : Fraction fraction) (hexponent : Exponent exponent)
    (h : (numeralOf whole fraction exponent).value negative = .ok (.natural n)) :
    fraction = [] ∧ exponent = [] ∧ negative = false ∧
      n = Nat.ofDigitChars 10 whole 0 ∧ n ≤ natural64Max := by
  obtain ⟨hdrop, hnone, hpositive, hn, hle⟩ := of_value_natural h
  refine ⟨?_, ?_, hpositive, hn, hle⟩
  · cases hfraction with
    | none => rfl
    | digits hne => exact absurd hdrop hne
  · cases hexponent with
    | none => rfl
    | digits => cases hnone

theorem Denotes.meaning_of_natural {n : Nat} (h : Denotes d m t (.number (.natural n))) :
    m = .natural n := by
  generalize hv : Value.number (.natural n) = v at h
  cases h with
  | natural hwhole hvalue =>
    cases hv
    obtain ⟨-, -, -, rfl, -⟩ := of_numeralOf_natural .none .none hvalue
    rfl
  | @number d sign _ _ _ _ hsign hwhole hfraction hexponent hother hvalue =>
    cases hv
    obtain ⟨rfl, rfl, hpositive, -⟩ := of_numeralOf_natural hfraction hexponent hvalue
    cases sign with
    | nil => simp at hother
    | cons c sign => cases hpositive
  | _ => cases hv

/-- What is looked up in an object is what its document has in the same place. -/
theorem lookup_denoted {members : List (Member × String × Value)} {name : String} {w : Value}
    (hname : ∀ m ∈ members, m.1.name.text = some m.2.1)
    (h : ∀ m ∈ members, Denotes d m.1.value.meaning m.1.value.text m.2.2)
    (hw : (members.map (·.2)).lookup name = some w) :
    ∃ m t, ((members.map (·.1)).map (·.meaning)).lookup (some name) = some m ∧ Denotes d m t w := by
  induction members with
  | nil => cases hw
  | cons member members ih =>
    obtain ⟨hhead, hnames⟩ := List.forall_mem_cons.1 hname
    obtain ⟨hvalue, hvalues⟩ := List.forall_mem_cons.1 h
    obtain ⟨part, n, v⟩ := member
    simp only [List.map_cons, List.lookup_cons, Member.meaning] at hw hhead ⊢
    rw [hhead]
    by_cases hn : name = n
    · subst hn
      simp only [beq_self_eq_true] at hw ⊢
      cases hw
      exact ⟨_, _, rfl, hvalue⟩
    · have hn' : (some name == some n) = false := by simpa using hn
      rw [beq_eq_false_iff_ne.2 hn] at hw
      rw [hn']
      exact ih hnames hvalues hw

/-! ## What has been read is a value -/

theorem exists_denotes_numeral (sign : List Char) {whole fraction exponent : List Char} {n : Number}
    (hsign : sign ∈ [[], ['-']]) (hwhole : Whole whole) (hfraction : Fraction fraction)
    (hexponent : Exponent exponent)
    (hvalue : (numeralOf whole fraction exponent).value (!sign.isEmpty) = .ok n) :
    ∃ m, Denotes d m (sign ++ (whole ++ (fraction ++ exponent))) (.number n) := by
  by_cases hother : sign ≠ [] ∨ fraction ≠ [] ∨ exponent ≠ []
  · exact ⟨_, .number hsign hwhole hfraction hexponent hother hvalue⟩
  · simp only [not_or, not_not] at hother
    obtain ⟨rfl, rfl, rfl⟩ := hother
    refine ⟨.natural (Nat.ofDigitChars 10 whole 0), ?_⟩
    rw [List.nil_append, List.append_nil, List.append_nil]
    exact .natural hwhole hvalue

theorem map_eq_ok {f : α → β} {x : Except ε α} {y : β} (h : x.map f = .ok y) :
    ∃ z, x = .ok z ∧ f z = y := by
  cases x with
  | error e => cases h
  | ok z => exact ⟨z, rfl, Except.ok.inj h⟩

/-- What the reader has passed when it answers, in front of a value and inside a list or an
object. -/
theorem of_readValueSteps (fuel : Nat) :
    (∀ {d s v r}, readValueSteps fuel d s = .ok (v, r) →
      ∃ (before : Blanks) (m : Meaning) (t : List Char),
        s = before.1 ++ (t ++ r) ∧ Denotes d m t v) ∧
    (∀ {d first s vs r}, readItems fuel d first s = .ok (vs, r) →
      ∃ items : List (Item × Value), items.map (·.2) = vs ∧
        (∀ i ∈ items, Denotes d i.1.meaning i.1.text i.2) ∧
        Row Item.write ']' first (items.map (·.1)) s r) ∧
    (∀ {d first s vs r}, readMembers fuel d first s = .ok (vs, r) →
      ∃ members : List (Member × String × Value), members.map (·.2) = vs ∧
        (∀ m ∈ members, m.1.name.text = some m.2.1) ∧
        (∀ m ∈ members, Denotes d m.1.value.meaning m.1.value.text m.2.2) ∧
        Row Member.write '\x7d' first (members.map (·.1)) s r) := by
  induction fuel with
  | zero => exact ⟨nofun, nofun, nofun⟩
  | succ fuel ih =>
    obtain ⟨ihvalue, ihitems, ihmembers⟩ := ih
    refine ⟨?_, ?_, ?_⟩
    · intro d s v r h
      rw [readValueSteps] at h
      split at h
      · cases h
      · next c u hskip =>
        obtain ⟨-, before, rfl⟩ := of_skipSpace hskip
        split_ifs at h with hnull hyes hno hminus hdigit hquote hlist hobject
        · obtain ⟨w, hw, heq⟩ := map_eq_ok h
          cases heq
          exact ⟨before, _, _, by rw [hnull, of_readWord hw]; rfl, .null⟩
        · obtain ⟨w, hw, heq⟩ := map_eq_ok h
          cases heq
          exact ⟨before, _, _, by rw [hyes, of_readWord hw]; rfl, .yes⟩
        · obtain ⟨w, hw, heq⟩ := map_eq_ok h
          cases heq
          exact ⟨before, _, _, by rw [hno, of_readWord hw]; rfl, .no⟩
        · obtain ⟨⟨n, w⟩, hw, heq⟩ := map_eq_ok h
          cases heq
          obtain ⟨whole, fraction, exponent, rfl, hwhole, hfraction, hexponent, hvalue⟩ :=
            of_readNumber hw
          obtain ⟨m, hm⟩ :=
            exists_denotes_numeral ['-'] (by simp) hwhole hfraction hexponent hvalue
          exact ⟨before, m, _, by simp [hminus], hm⟩
        · obtain ⟨⟨n, w⟩, hw, heq⟩ := map_eq_ok h
          cases heq
          obtain ⟨whole, fraction, exponent, hu, hwhole, hfraction, hexponent, hvalue⟩ :=
            of_readNumber hw
          obtain ⟨m, hm⟩ :=
            exists_denotes_numeral [] (by simp) hwhole hfraction hexponent hvalue
          exact ⟨before, m, _, by simp [hu], hm⟩
        · obtain ⟨⟨text, w⟩, hw, heq⟩ := map_eq_ok h
          cases heq
          obtain ⟨marked, htext, hu⟩ := exists_marked_of_readString hw
          refine ⟨before, _, _, ?_, .string marked htext⟩
          rw [hquote, hu, Marked.write_append, List.nil_append]
        · cases d with
          | zero => cases h
          | succ d =>
            obtain ⟨⟨items, w⟩, hw, heq⟩ := map_eq_ok h
            cases heq
            obtain ⟨items, rfl, hitems, hrow⟩ := ihitems hw
            obtain ⟨closed, behind, hclosed, rfl⟩ := hrow
            refine ⟨before, _, _, ?_, .list behind hitems⟩
            rw [hclosed rfl, hlist, List.cons_append, sequence_append Item.write_append,
              List.append_assoc]
            rfl
        · cases d with
          | zero => cases h
          | succ d =>
            obtain ⟨⟨members, w⟩, hw, heq⟩ := map_eq_ok h
            cases heq
            obtain ⟨members, rfl, hname, hmembers, hrow⟩ := ihmembers hw
            obtain ⟨closed, behind, hclosed, rfl⟩ := hrow
            refine ⟨before, _, _, ?_, .object behind hname hmembers⟩
            rw [hclosed rfl, hobject, List.cons_append, sequence_append Member.write_append,
              List.append_assoc]
            rfl
    · intro d first s vs r h
      rw [readItems] at h
      split at h
      · cases h
      · next u hnext =>
        obtain ⟨w, hw, heq⟩ := map_eq_ok h
        cases heq
        obtain ⟨before, t, rfl, rfl⟩ := of_nextElement_end hnext
        obtain rfl : t = r := Except.ok.inj hw
        exact ⟨[], rfl, nofun, Row.closed before⟩
      · next u hnext =>
        split at h
        · cases h
        · next v w hv =>
          obtain ⟨⟨vs, w'⟩, hw, heq⟩ := map_eq_ok h
          cases heq
          obtain ⟨before, m, t, rfl, ht⟩ := ihvalue hv
          obtain ⟨items, rfl, hitems, hrow⟩ := ihitems hw
          obtain ⟨i, hi, hrow⟩ := Row.item (m := m) (of_nextElement hnext) hrow
          obtain ⟨htext, hmeaning⟩ := Prod.mk.inj hi
          refine ⟨(i, v) :: items, rfl, List.forall_mem_cons.2 ⟨?_, hitems⟩, hrow⟩
          rwa [htext, hmeaning]
    · intro d first s vs r h
      rw [readMembers] at h
      split at h
      · cases h
      · next u hnext =>
        obtain ⟨w, hw, heq⟩ := map_eq_ok h
        cases heq
        obtain ⟨before, t, rfl, rfl⟩ := of_nextMember_end hnext
        obtain rfl : t = r := Except.ok.inj hw
        exact ⟨[], rfl, nofun, nofun, Row.closed before⟩
      · next key u hnext =>
        obtain ⟨name, hname, hentered⟩ := of_nextMember hnext
        split at h
        · cases h
        · next x hcolon =>
          obtain ⟨colon, rfl⟩ := of_readColon hcolon
          split at h
          · cases h
          · next v w hv =>
            obtain ⟨⟨vs, w'⟩, hw, heq⟩ := map_eq_ok h
            cases heq
            obtain ⟨before, m, t, rfl, ht⟩ := ihvalue hv
            obtain ⟨members, rfl, hnames, hmembers, hrow⟩ := ihmembers hw
            obtain ⟨part, rfl, hvalue, hrow⟩ := Row.member (m := m) hentered hrow
            obtain ⟨htext, hmeaning⟩ := Prod.mk.inj hvalue
            refine ⟨(part, key, v) :: members, rfl, List.forall_mem_cons.2 ⟨hname, hnames⟩,
              List.forall_mem_cons.2 ⟨?_, hmembers⟩, hrow⟩
            rwa [htext, hmeaning]

theorem of_readValue (h : readValue d s = .ok (v, r)) :
    ∃ (before : Blanks) (m : Meaning) (t : List Char), s = before.1 ++ (t ++ r) ∧ Denotes d m t v :=
  (of_readValueSteps _).1 h

/-! ## Values are read -/

theorem nextElement_part {i : Item} {c : Char} {u : List Char} (hc : i.text = c :: u)
    (hspace : isSpace c = false) (hclose : c ≠ ']') (first : Bool) (before : Blanks)
    (items : List Item) (rest : List Char) :
    nextElement first (before.1 ++ sequence Item.write first (i :: items) rest) =
      .ok (true, i.text ++ (i.behind.1 ++ sequence Item.write false items rest)) := by
  have hskip : ∀ w, skipSpace (i.write w) = c :: (u ++ (i.behind.1 ++ w)) := by
    intro w
    rw [Item.write, skipSpace_blanks, hc]
    exact skipSpace_of_not_space hspace _
  cases first with
  | true =>
    rw [nextElement, skipSpace_blanks, sequence, hskip, hc]
    simp only [if_neg hclose, if_true, List.cons_append]
  | false =>
    rw [nextElement, skipSpace_blanks, sequence, skipSpace_of_not_space (by decide)]
    simp only [hskip, if_neg hclose, hc, List.cons_append, if_false, if_true, Char.reduceEq,
      Bool.false_eq_true]

theorem nextElement_closed (before behind : Blanks) (first : Bool) (rest : List Char) :
    nextElement first (before.1 ++ (behind.1 ++ ']' :: rest)) = .ok (false, ']' :: rest) := by
  rw [nextElement, skipSpace_blanks, skipSpace_blanks, skipSpace_of_not_space (by decide)]
  rfl

/-- A text is read as a value with a budget of twice its length. -/
def ReadWithin (d : Nat) (t : List Char) (v : Value) : Prop :=
  ∀ (fuel : Nat) (before : Blanks) (rest : List Char), 2 * t.length ≤ fuel → Leaves rest →
    readValueSteps fuel d (before.1 ++ (t ++ rest)) = .ok (v, rest)

/-- One call passes the first character, and the rest of the text is passed in the budget that is
left. -/
theorem readWithin_of_call {c : Char} {u : List Char} (hspace : isSpace c = false)
    (h : ∀ fuel rest, 2 * u.length + 1 ≤ fuel → Leaves rest →
      readValueSteps (fuel + 1) d (c :: (u ++ rest)) = .ok (v, rest)) :
    ReadWithin d (c :: u) v := by
  intro fuel before rest hfuel hrest
  rw [List.length_cons] at hfuel
  obtain ⟨fuel, rfl⟩ : ∃ k, fuel = k + 1 := ⟨fuel - 1, by omega⟩
  rw [← h fuel rest (by omega) hrest, readValueSteps, readValueSteps, skipSpace_blanks,
    List.cons_append, skipSpace_of_not_space hspace]

theorem readNumber_spelled {whole fraction exponent rest : List Char} {negative : Bool}
    {n : Number} (hwhole : Whole whole) (hfraction : Fraction fraction)
    (hexponent : Exponent exponent)
    (hvalue : (numeralOf whole fraction exponent).value negative = .ok n) (hrest : Leaves rest) :
    readNumber negative (whole ++ (fraction ++ exponent) ++ rest) = .ok (n, rest) := by
  have hscan := scanNumeral_spelled hwhole hfraction hexponent hrest .valueMissing
  simp only [readNumber, List.append_assoc, hscan, hvalue]

theorem readValueSteps_digit {c : Char} (hc : isDigit c = true) (fuel : Nat) (r : List Char) :
    readValueSteps (fuel + 1) d (c :: r) =
      (readNumber false (c :: r)).map fun (n, r) => (.number n, r) := by
  have hne : ∀ e, isDigit e = false → c ≠ e := fun e he => ne_of_isDigit hc he
  rw [readValueSteps, skipSpace_of_not_space (isSpace_of_isDigit hc)]
  simp only [hne 'n' rfl, hne 't' rfl, hne 'f' rfl, hne '-' rfl, hc, if_false, if_true]

theorem readWithin_numeral {sign whole fraction exponent : List Char} {n : Number}
    (hsign : sign ∈ [[], ['-']]) (hwhole : Whole whole) (hfraction : Fraction fraction)
    (hexponent : Exponent exponent)
    (hvalue : (numeralOf whole fraction exponent).value (!sign.isEmpty) = .ok n) :
    ReadWithin d (sign ++ (whole ++ (fraction ++ exponent))) (.number n) := by
  have hread : ∀ rest, Leaves rest → readNumber (!sign.isEmpty)
      (whole ++ (fraction ++ exponent) ++ rest) = .ok (n, rest) :=
    fun rest => readNumber_spelled hwhole hfraction hexponent hvalue
  rw [List.mem_pair] at hsign
  rcases hsign with rfl | rfl
  · obtain ⟨c, u, rfl, hc⟩ := hwhole.exists_cons
    refine readWithin_of_call (isSpace_of_isDigit hc) fun fuel rest _ hrest => ?_
    have hnumber : readNumber false (c :: (u ++ (fraction ++ exponent) ++ rest)) = .ok (n, rest) :=
      hread rest hrest
    show readValueSteps (fuel + 1) d (c :: (u ++ (fraction ++ exponent) ++ rest)) = _
    rw [readValueSteps_digit hc, hnumber]
    rfl
  · refine readWithin_of_call (by decide) fun fuel rest _ hrest => ?_
    rw [readValueSteps, skipSpace_of_not_space (by decide)]
    have hnumber : readNumber true (whole ++ (fraction ++ exponent) ++ rest) = .ok (n, rest) :=
      hread rest hrest
    show (readNumber true (whole ++ (fraction ++ exponent) ++ rest)).map _ = _
    rw [hnumber]
    rfl

theorem length_sequence_le {write : α → List Char → List Char}
    (hwrite : ∀ part r u, write part r ++ u = write part (r ++ u)) (parts : List α) (first : Bool)
    (r : List Char) :
    (sequence write first parts []).length ≤ (sequence write first parts r).length := by
  have happend : (sequence write first parts [] ++ r).length =
      (sequence write first parts ([] ++ r)).length :=
    congrArg List.length (sequence_append hwrite first [] r)
  rw [List.length_append, List.nil_append] at happend
  omega

theorem readItems_spelled {items : List (Item × Value)}
    (hitems : ∀ i ∈ items, Spells i.1.meaning i.1.text ∧ ReadWithin d i.1.text i.2) (first : Bool)
    (before behind : Blanks) (rest : List Char) (fuel : Nat)
    (hfuel : 2 * (sequence Item.write first (items.map (·.1)) []).length + 1 ≤ fuel) :
    readItems fuel d first
        (before.1 ++ sequence Item.write first (items.map (·.1)) (behind.1 ++ ']' :: rest)) =
      .ok (items.map (·.2), rest) := by
  induction items generalizing first before fuel with
  | nil =>
    obtain ⟨fuel, rfl⟩ : ∃ k, fuel = k + 1 := ⟨fuel - 1, by omega⟩
    rw [List.map_nil, sequence, readItems]
    simp only [nextElement_closed]
    rfl
  | cons item items ih =>
    obtain ⟨⟨hspells, hitem⟩, hrow⟩ := List.forall_mem_cons.1 hitems
    obtain ⟨c, u, hc, hspace, hclose⟩ := hspells.exists_cons
    have hlength : item.1.text.length + (sequence Item.write false (items.map (·.1)) []).length ≤
        (sequence Item.write first ((item :: items).map (·.1)) []).length := by
      cases first with
      | true =>
        simp only [List.map_cons, sequence, Item.write, List.length_append]
        omega
      | false =>
        simp only [List.map_cons, sequence, Item.write, List.length_append, List.length_cons]
        omega
    have hpos : 0 < item.1.text.length := by
      rw [hc]
      exact Nat.succ_pos _
    obtain ⟨fuel, rfl⟩ : ∃ k, fuel = k + 1 := ⟨fuel - 1, by omega⟩
    have hleaves : Leaves (sequence Item.write false (items.map (·.1)) (behind.1 ++ ']' :: rest)) :=
      leaves_sequence ((leaves_cons (by decide) rest).blanks behind)
    have hread := hitem fuel .none _ (by omega) (hleaves.blanks item.1.behind)
    have hlater := ih hrow false item.1.behind fuel (by omega)
    rw [Blanks.none, List.nil_append] at hread
    rw [List.map_cons, readItems]
    simp only [nextElement_part hc hspace hclose, hread, hlater]
    rfl

theorem readMembers_spelled {members : List (Member × String × Value)}
    (hname : ∀ m ∈ members, m.1.name.text = some m.2.1)
    (hmembers : ∀ m ∈ members,
      Spells m.1.value.meaning m.1.value.text ∧ ReadWithin d m.1.value.text m.2.2)
    (first : Bool) (before behind : Blanks) (rest : List Char) (fuel : Nat)
    (hfuel : 2 * (sequence Member.write first (members.map (·.1)) []).length + 1 ≤ fuel) :
    readMembers fuel d first
        (before.1 ++ sequence Member.write first (members.map (·.1)) (behind.1 ++ '\x7d' :: rest)) =
      .ok (members.map (·.2), rest) := by
  induction members generalizing first before fuel with
  | nil =>
    obtain ⟨fuel, rfl⟩ : ∃ k, fuel = k + 1 := ⟨fuel - 1, by omega⟩
    rw [List.map_nil, sequence, readMembers]
    simp only [nextMember_end]
    rfl
  | cons member members ih =>
    obtain ⟨hname, hnames⟩ := List.forall_mem_cons.1 hname
    obtain ⟨⟨hspells, hmember⟩, hrow⟩ := List.forall_mem_cons.1 hmembers
    obtain ⟨part, name, v⟩ := member
    have hlength :
        part.value.text.length + (sequence Member.write false (members.map (·.1)) []).length + 1 ≤
          (sequence Member.write first (((part, name, v) :: members).map (·.1)) []).length := by
      cases first with
      | true =>
        simp only [List.map_cons, sequence, Member.write, Marked.write, Member.tail, Item.write,
          List.length_append, List.length_cons]
        omega
      | false =>
        simp only [List.map_cons, sequence, Member.write, Marked.write, Member.tail, Item.write,
          List.length_append, List.length_cons]
        omega
    obtain ⟨fuel, rfl⟩ : ∃ k, fuel = k + 1 := ⟨fuel - 1, by omega⟩
    have hleaves :
        Leaves (sequence Member.write false (members.map (·.1)) (behind.1 ++ '\x7d' :: rest)) :=
      leaves_sequence ((leaves_cons (by decide) rest).blanks behind)
    have hread := hmember fuel part.value.before _ (show 2 * part.value.text.length ≤ fuel by omega)
      (hleaves.blanks part.value.behind)
    have hlater := ih hnames hrow false part.value.behind fuel (by omega)
    rw [List.map_cons, readMembers]
    simp only [nextMember_write hname, Member.readColon_tail, Item.write, hread, hlater]
    rfl

theorem Denotes.readWithin (h : Denotes d m t v) : ReadWithin d t v := by
  -- a bracket is one character and one call, so twice the length is enough at every depth
  induction h with
  | null => exact readWithin_of_call (by decide) fun _ _ _ _ => rfl
  | yes => exact readWithin_of_call (by decide) fun _ _ _ _ => rfl
  | no => exact readWithin_of_call (by decide) fun _ _ _ _ => rfl
  | @natural d ds n hwhole hvalue =>
    have hsign : [] ∈ [[], ['-']] := List.mem_cons_self
    have hread := readWithin_numeral (d := d) hsign hwhole .none .none hvalue
    rwa [List.nil_append, List.append_nil, List.append_nil] at hread
  | number hsign hwhole hfraction hexponent _ hvalue =>
    exact readWithin_numeral hsign hwhole hfraction hexponent hvalue
  | @string d text w h =>
    refine readWithin_of_call (by decide) fun fuel rest _ _ => ?_
    have hread := readString_spelled ((w.meant text).1 h) rest
    rw [readValueSteps, skipSpace_of_not_space (by decide), List.append_assoc]
    show (readString (w.body ++ '"' :: rest)).map _ = _
    rw [hread]
    show Except.ok (Value.string (String.ofList text.toList), rest) = _
    rw [String.ofList_toList]
  | @list d items behind h ih =>
    refine readWithin_of_call (by decide) fun fuel rest hfuel _ => ?_
    have hlength :=
      length_sequence_le Item.write_append (items.map (·.1)) true (behind.1 ++ [']'])
    have hread := readItems_spelled (fun i hi => ⟨(h i hi).spells, ih i hi⟩) true .none behind rest
      fuel (by omega)
    rw [readValueSteps, skipSpace_of_not_space (by decide), sequence_append Item.write_append,
      List.append_assoc]
    show (readItems fuel d true _).map _ = _
    rw [Blanks.none, List.nil_append] at hread
    rw [List.singleton_append, hread]
    rfl
  | @object d members behind hname h ih =>
    refine readWithin_of_call (by decide) fun fuel rest hfuel _ => ?_
    have hlength :=
      length_sequence_le Member.write_append (members.map (·.1)) true (behind.1 ++ ['\x7d'])
    have hread := readMembers_spelled hname (fun m hm => ⟨(h m hm).spells, ih m hm⟩) true .none
      behind rest fuel (by omega)
    rw [readValueSteps, skipSpace_of_not_space (by decide), sequence_append Member.write_append,
      List.append_assoc]
    show (readMembers fuel d true _).map _ = _
    rw [Blanks.none, List.nil_append] at hread
    rw [List.singleton_append, hread]
    rfl

theorem Denotes.reads (h : Denotes d m t v) : Reads (readValue d) t v := by
  intro before rest hrest
  refine h.readWithin _ before rest ?_ hrest
  rw [List.length_append, List.length_append]
  omega

end PromptRunner.Json
