import PromptRunner.Proofs.Json.Continuation
import PromptRunner.Proofs.Json.Grammar

/-!
# Every document can be stepped over

A field that nobody asked for is stepped over, whatever document it holds: however deep its brackets
and however large its numbers, with halves of pairs in its strings. `skipValue_spelled` is the
statement, and it needs no more of the text behind than that it does not go on with a numeral.

The steps are counted, and the count they start with has to be enough. So the induction over the
grammar says more: a document is passed in some number of steps, at most two for each of its
characters, with any brackets open around it and whatever number of steps is left over. `Takes` is
that statement for any two places of the skipping reader, and such passages are put one after the
other by adding their numbers.
-/

namespace PromptRunner.Json

/-! ## Strings and numerals -/

theorem skipString_body {s : List Char} (h : Body s) (r : List Char) :
    skipString (s ++ '"' :: r) = .ok r := by
  induction h with
  | nil =>
    rw [List.nil_append, skipString.eq_def]
    rfl
  | plain hmark hslash hcontrol _ ih =>
    rw [List.cons_append, skipString.eq_def]
    simp only [hmark, hslash, hcontrol, if_false, Bool.false_eq_true]
    exact ih
  | @short e c s he _ ih =>
    have hu : e ≠ 'u' := by
      rintro rfl
      exact Option.some_ne_none c (he.symm.trans (by decide))
    rw [List.cons_append, List.cons_append, skipString.eq_def]
    simp only [hu, he, if_false, if_true, Char.reduceEq]
    exact ih
  | numbered hn _ ih =>
    simp only [List.cons_append]
    rw [skipString.eq_def]
    simp only [hn, if_false, if_true, Char.reduceEq]
    exact ih

theorem scanFraction_spelled {s rest : List Char} (h : Fraction s)
    (hrest : ∀ c, rest.head? = some c → isDigit c = false ∧ c ≠ '.') (short : Problem) :
    scanFraction short (s ++ rest) = .ok (s.drop 1, rest) := by
  cases h with
  | none =>
    have hnone : ∀ c ∈ ([] : List Char), isDigit c = true := by simp
    exact scanFraction_append hnone hrest short
  | @digits ds hne hds =>
    have hscan := scanFraction_append hds hrest short
    rwa [if_neg hne] at hscan

/-- What an exponent says, from its text. -/
def exponentOf : List Char → Option (Bool × List Char)
  | [] => none
  | _ :: s => some (exponentSign s)

/-- A digit is no sign. -/
theorem exponentSign_digit {d : Char} (hd : isDigit d = true) (s : List Char) :
    exponentSign (d :: s) = (false, d :: s) := by
  rw [exponentSign]
  all_goals
    rintro r heq
    cases heq
    exact absurd hd (by decide)

theorem scanExponent_spelled {s rest : List Char} (h : Exponent s) (hrest : Leaves rest)
    (short : Problem) : scanExponent short (s ++ rest) = .ok (exponentOf s, rest) := by
  cases h with
  | none =>
    have hnone : ∀ (negative : Bool) (ds : List Char), none = some (negative, ds) →
        ds ≠ [] ∧ ∀ c ∈ ds, isDigit c = true := by simp
    exact scanExponent_append hnone hrest short
  | @digits mark sign ds hmark hsign hne hds =>
    have hmark : (decide (mark = 'e') || decide (mark = 'E')) = true := by
      rw [List.mem_pair] at hmark
      rcases hmark with rfl | rfl <;> rfl
    obtain ⟨d, ds, rfl⟩ := List.exists_cons_of_ne_nil hne
    have hd := hds d List.mem_cons_self
    have hsign : exponentSign (sign ++ (d :: ds)) = ((exponentSign sign).1, d :: ds) ∧
        exponentSign (sign ++ (d :: ds ++ rest)) = ((exponentSign sign).1, d :: ds ++ rest) := by
      simp only [List.mem_cons, List.not_mem_nil, or_false] at hsign
      rcases hsign with rfl | rfl | rfl
      · exact ⟨exponentSign_digit hd ds, exponentSign_digit hd (ds ++ rest)⟩
      · exact ⟨rfl, rfl⟩
      · exact ⟨rfl, rfl⟩
    have hspan := spanDigits_append hds fun c hc => (hrest c hc).1
    rw [List.cons_append, List.append_assoc, scanExponent_eq short hmark, hsign.2, exponentDigits,
      hspan, exponentOf, hsign.1]

/-- A numeral from the texts of its parts. -/
def numeralOf (whole fraction exponent : List Char) : Numeral :=
  ⟨whole, fraction.drop 1, exponentOf exponent⟩

theorem scanNumeral_spelled {whole fraction exponent rest : List Char} (hwhole : Whole whole)
    (hfraction : Fraction fraction) (hexponent : Exponent exponent) (hrest : Leaves rest)
    (short : Problem) :
    scanNumeral short (whole ++ (fraction ++ (exponent ++ rest))) =
      .ok (numeralOf whole fraction exponent, rest) := by
  have hbehind : ∀ c, (exponent ++ rest).head? = some c → isDigit c = false ∧ c ≠ '.' := by
    intro c hc
    cases hexponent with
    | none => exact ⟨(hrest c hc).1, (hrest c hc).2.1⟩
    | digits hmark =>
      cases hc
      rw [List.mem_pair] at hmark
      rcases hmark with rfl | rfl <;> decide
  have hmiddle : ∀ c, (fraction ++ (exponent ++ rest)).head? = some c → isDigit c = false := by
    intro c hc
    cases hfraction with
    | none => exact (hbehind c hc).1
    | digits =>
      cases hc
      rfl
  rw [scanNumeral, scanWhole_append hwhole.digits hwhole.lead hmiddle]
  simp only [scanFraction_spelled hfraction hbehind, scanExponent_spelled hexponent hrest,
    numeralOf]

/-! ## Values without brackets -/

theorem ne_of_isDigit {c d : Char} (hc : isDigit c = true) (hd : isDigit d = false) : c ≠ d := by
  rintro rfl
  exact absurd hc (by rw [hd]; decide)

theorem skipNumber_spelled {whole fraction exponent rest : List Char} (hwhole : Whole whole)
    (hfraction : Fraction fraction) (hexponent : Exponent exponent) (hrest : Leaves rest) :
    skipNumber (whole ++ (fraction ++ (exponent ++ rest))) = .ok rest := by
  rw [skipNumber, scanNumeral_spelled hwhole hfraction hexponent hrest]
  rfl

theorem skipScalar_digits {c : Char} (hc : isDigit c = true) (r : List Char) :
    skipScalar (c :: r) = skipNumber (c :: r) := by
  have hne : ∀ d, isDigit d = false → c ≠ d := fun d hd => ne_of_isDigit hc hd
  rw [skipScalar]
  simp only [hne 'n' rfl, hne 't' rfl, hne 'f' rfl, hne '-' rfl, hc, if_false, if_true]

/-- A value that is no list and no object, as one step passes it. -/
def Bare (s : List Char) : Prop :=
  ∃ c r, s = c :: r ∧ isSpace c = false ∧ c ≠ '[' ∧ c ≠ '\x7b' ∧
    ∀ rest, Leaves rest → skipScalar (s ++ rest) = .ok rest

theorem bare_numeral {sign whole fraction exponent : List Char} (hsign : sign ∈ [[], ['-']])
    (hwhole : Whole whole) (hfraction : Fraction fraction) (hexponent : Exponent exponent) :
    Bare (sign ++ (whole ++ (fraction ++ exponent))) := by
  have hskip : ∀ rest, Leaves rest →
      skipNumber ((whole ++ (fraction ++ exponent)) ++ rest) = .ok rest := by
    intro rest hrest
    simp only [List.append_assoc]
    exact skipNumber_spelled hwhole hfraction hexponent hrest
  obtain ⟨c, r, rfl, hc⟩ := hwhole.exists_cons
  rw [List.mem_pair] at hsign
  rcases hsign with rfl | rfl
  · refine ⟨c, r ++ (fraction ++ exponent), rfl, isSpace_of_isDigit hc, ne_of_isDigit hc rfl,
      ne_of_isDigit hc rfl, fun rest hrest => ?_⟩
    exact (skipScalar_digits hc _).trans (hskip rest hrest)
  · exact ⟨'-', _, rfl, by decide, by decide, by decide, fun rest hrest => hskip rest hrest⟩

/-! ## Passing from one place to another -/

/-- Where a skipping reader is. -/
structure Standing where
  stage : Stage
  stack : List Bracket
  text : List Char

def Standing.run (p : Standing) (fuel : Nat) : Except Fault (List Char) :=
  skipSteps fuel p.stage p.stack p.text

/-- From the one place the reader gets to the other in so many steps, one step at least being left
over. -/
def Takes (k : Nat) (p q : Standing) : Prop := ∀ fuel, p.run (fuel + 1 + k) = q.run (fuel + 1)

variable {p q r : Standing} {k l : Nat} {stack : List Bracket} {b : Bracket} {s t : List Char}

theorem Takes.trans (h : Takes k p q) (h' : Takes l q r) : Takes (k + l) p r := by
  intro fuel
  have hk := h (fuel + l)
  have hl := h' fuel
  rw [show fuel + 1 + (k + l) = fuel + l + 1 + k by omega, hk,
    show fuel + l + 1 = fuel + 1 + l by omega, hl]

theorem run_value_skipSpace (stack : List Bracket) (s : List Char) (fuel : Nat) :
    Standing.run ⟨.value, stack, skipSpace s⟩ (fuel + 1) =
      Standing.run ⟨.value, stack, s⟩ (fuel + 1) := by
  simp only [Standing.run, skipSteps, skipSpace_skipSpace]

/-- Blanks behind a value are passed in no step. -/
theorem takes_behind (blanks : Blanks) :
    Takes 0 ⟨.valueDone, b :: stack, blanks.1 ++ s⟩ ⟨.valueDone, b :: stack, s⟩ := by
  have hstage : Stage.valueDone ≠ .value := by decide
  intro fuel
  simp only [Standing.run, add_zero]
  rw [skipSteps_inside hstage, skipSteps_inside hstage, skipSpace_blanks]

theorem takes_bare (h : Bare s) (blanks : Blanks) {rest : List Char} (hrest : Leaves rest) :
    Takes 1 ⟨.value, stack, blanks.1 ++ (s ++ rest)⟩ ⟨.valueDone, stack, rest⟩ := by
  obtain ⟨c, r, rfl, hspace, hlist, hobject, hskip⟩ := h
  intro fuel
  have hnext := hskip rest hrest
  rw [List.cons_append] at hnext ⊢
  simp only [Standing.run, skipSteps, skipSpace_blanks, skipSpace_of_not_space hspace, if_neg hlist,
    if_neg hobject, hnext]

/-- What opens a bracket. -/
def Bracket.opening : Bracket → Char
  | .list => '['
  | .object => '\x7b'

theorem takes_opening (blanks : Blanks) :
    Takes 1 ⟨.value, stack, blanks.1 ++ b.opening :: s⟩ ⟨.opened, b :: stack, s⟩ := by
  intro fuel
  simp only [Standing.run, skipSteps, skipSpace_blanks]
  cases b <;> rfl

theorem takes_closing {stage : Stage} (hstage : stage ≠ .value) (blanks : Blanks) :
    Takes 1 ⟨stage, b :: stack, blanks.1 ++ b.closing :: s⟩ ⟨.valueDone, stack, s⟩ := by
  have hspace : isSpace b.closing = false := by cases b <;> rfl
  intro fuel
  simp only [Standing.run]
  rw [skipSteps_inside hstage, skipSpace_blanks, skipSpace_of_not_space hspace]
  exact if_pos rfl

theorem takes_entry (h : memberText b s = .ok t) {c : Char} {r : List Char}
    (hs : skipSpace s = c :: r) (hc : c ≠ b.closing) :
    Takes 1 ⟨.opened, b :: stack, s⟩ ⟨.value, b :: stack, t⟩ := by
  have hstage : Stage.opened ≠ .value := by decide
  intro fuel
  simp only [Standing.run]
  rw [skipSteps_inside hstage, hs]
  simp only [if_neg hc, if_true]
  -- the blanks may be put back, since what comes next passes them again
  rw [← hs]
  cases b with
  | list =>
    cases h
    exact run_value_skipSpace _ s fuel
  | object =>
    have hkey : memberText .object (skipSpace s) = .ok t := by
      rw [← h]
      simp only [memberText, skipKey, skipSpace_skipSpace]
    rw [hkey]

theorem takes_separator (h : memberText b s = .ok t) :
    Takes 1 ⟨.valueDone, b :: stack, ',' :: s⟩ ⟨.value, b :: stack, t⟩ := by
  have hc : ',' ≠ b.closing := by cases b <;> decide
  have hstage : Stage.valueDone ≠ .value := by decide
  intro fuel
  simp only [Standing.run]
  rw [skipSteps_inside hstage, skipSpace_of_not_space (by decide)]
  simp only [if_neg hc, reduceCtorEq, if_false, if_true, h]

/-! ## Passing a document -/

/-- A value is passed in at most two steps for each of its characters. -/
def Passed (s : List Char) : Prop :=
  ∃ k ≤ 2 * s.length, ∀ (blanks : Blanks) (stack : List Bracket) (rest : List Char), Leaves rest →
    Takes k ⟨.value, stack, blanks.1 ++ (s ++ rest)⟩ ⟨.valueDone, stack, rest⟩

/-- A part inside a bracket is entered and passed in at most two steps for each of its
characters. -/
def PartPassed (b : Bracket) (write : α → List Char → List Char) (part : α) : Prop :=
  ∃ k, ∀ rest, k + 2 * rest.length ≤ 2 * (write part rest).length ∧
    (Leaves rest →
      (∃ c r, skipSpace (write part rest) = c :: r ∧ c ≠ b.closing) ∧
        ∃ t, memberText b (write part rest) = .ok t ∧
          ∀ stack, Takes k ⟨.value, b :: stack, t⟩ ⟨.valueDone, b :: stack, rest⟩)

theorem Bare.passed (h : Bare s) : Passed s := by
  refine ⟨1, ?_, fun blanks stack rest hrest => takes_bare h blanks hrest⟩
  obtain ⟨c, r, rfl, -⟩ := h
  rw [List.length_cons]
  omega

theorem passed_item {i : Item} (hs : Spells i.meaning i.text) (h : Passed i.text) :
    PartPassed .list Item.write i := by
  obtain ⟨k, hk, htakes⟩ := h
  refine ⟨k, fun rest => ⟨?_, fun hrest => ⟨?_, i.write rest, rfl, fun stack => ?_⟩⟩⟩
  · simp only [Item.write, List.length_append]
    omega
  · obtain ⟨c, r, hc, hspace, hclose⟩ := hs.exists_cons
    refine ⟨c, r ++ (i.behind.1 ++ rest), ?_, hclose⟩
    rw [Item.write, skipSpace_blanks, hc]
    exact skipSpace_of_not_space hspace _
  · exact (htakes i.before (.list :: stack) _ (hrest.blanks i.behind)).trans
      (takes_behind i.behind)

theorem skipKey_write (m : Member) (rest : List Char) :
    skipKey (m.write rest) = .ok (m.value.write rest) := by
  have hstring : skipString (m.name.body ++ '"' :: m.tail rest) = .ok (m.tail rest) :=
    skipString_body m.name.written _
  rw [skipKey, Member.write, Marked.write, skipSpace_blanks, skipSpace_of_not_space (by decide)]
  simp only [if_true, hstring]
  exact m.readColon_tail rest

theorem passed_member {m : Member} (hs : Passed m.value.text) :
    PartPassed .object Member.write m := by
  obtain ⟨k, hk, htakes⟩ := hs
  refine ⟨k, fun rest => ⟨?_, fun hrest => ⟨?_, m.value.write rest, skipKey_write m rest, ?_⟩⟩⟩
  · simp only [Member.write, Marked.write, Member.tail, Item.write, List.length_append,
      List.length_cons]
    omega
  · refine ⟨'"', m.name.body ++ '"' :: m.tail rest, ?_, by decide⟩
    rw [Member.write, skipSpace_blanks]
    exact skipSpace_of_not_space (by decide) _
  · intro stack
    exact (htakes m.value.before (.object :: stack) _ (hrest.blanks m.value.behind)).trans
      (takes_behind m.value.behind)

/-- Where a reader is in front of a row of parts. -/
def rowStage : Bool → Stage
  | true => .opened
  | false => .valueDone

theorem takes_sequence {write : α → List Char → List Char} {parts : List α}
    (hparts : ∀ part ∈ parts, PartPassed b write part) (blanks : Blanks) (first : Bool) :
    ∃ k, ∀ rest,
      k + 2 * rest.length ≤
        2 * (sequence write first parts (blanks.1 ++ b.closing :: rest)).length + first.toNat ∧
      ∀ stack, Takes k
        ⟨rowStage first, b :: stack, sequence write first parts (blanks.1 ++ b.closing :: rest)⟩
        ⟨.valueDone, stack, rest⟩ := by
  induction parts generalizing first with
  | nil =>
    refine ⟨1, fun rest => ⟨?_, fun stack => ?_⟩⟩
    · simp only [sequence, List.length_append, List.length_cons]
      omega
    · have hstage : rowStage first ≠ .value := by cases first <;> decide
      rw [sequence]
      exact takes_closing hstage blanks
  | cons part parts ih =>
    -- one step into the part, its own steps, and those of the row behind it
    obtain ⟨k, hpart⟩ := hparts part List.mem_cons_self
    obtain ⟨l, hrow⟩ := ih (fun part' hmem => hparts part' (List.mem_cons_of_mem _ hmem)) false
    refine ⟨1 + (k + l), fun rest => ?_⟩
    obtain ⟨hl, htakes⟩ := hrow rest
    have hleaves : Leaves (blanks.1 ++ b.closing :: rest) :=
      (leaves_cons (by cases b <;> decide) rest).blanks blanks
    obtain ⟨hk, hread⟩ := hpart (sequence write false parts (blanks.1 ++ b.closing :: rest))
    obtain ⟨⟨c, r, hc, hclose⟩, t, ht, hvalue⟩ := hread (leaves_sequence hleaves)
    simp only [Bool.toNat_false, add_zero] at hl
    cases first with
    | true =>
      refine ⟨?_, fun stack => ?_⟩
      · simp only [sequence, Bool.toNat_true]
        omega
      · exact (takes_entry ht hc hclose).trans ((hvalue stack).trans (htakes stack))
    | false =>
      refine ⟨?_, fun stack => ?_⟩
      · simp only [sequence, List.length_cons, Bool.toNat_false]
        omega
      · exact (takes_separator ht).trans ((hvalue stack).trans (htakes stack))

/-- A bracket with all that it holds. -/
theorem passed_row {write : α → List Char → List Char} {parts : List α}
    (hwrite : ∀ part r u, write part r ++ u = write part (r ++ u))
    (hparts : ∀ part ∈ parts, PartPassed b write part) (behind : Blanks) :
    Passed (b.opening :: sequence write true parts (behind.1 ++ [b.closing])) := by
  obtain ⟨k, hrow⟩ := takes_sequence hparts behind true
  refine ⟨1 + k, ?_, fun blanks stack rest _ => ?_⟩
  · have hk := (hrow []).1
    simp only [List.length_nil, mul_zero, add_zero, Bool.toNat_true] at hk
    rw [List.length_cons]
    omega
  · have htail : (behind.1 ++ [b.closing]) ++ rest = behind.1 ++ b.closing :: rest := by
      rw [List.append_assoc]
      rfl
    rw [List.cons_append, sequence_append hwrite, htail]
    exact (takes_opening blanks).trans ((hrow rest).2 stack)

theorem passed_spelled {m : Meaning} (h : Spells m s) : Passed s := by
  induction h with
  | null => exact Bare.passed ⟨_, _, rfl, by decide, by decide, by decide, fun _ _ => rfl⟩
  | yes => exact Bare.passed ⟨_, _, rfl, by decide, by decide, by decide, fun _ _ => rfl⟩
  | no => exact Bare.passed ⟨_, _, rfl, by decide, by decide, by decide, fun _ _ => rfl⟩
  | @natural ds hds =>
    have hbare := bare_numeral (by decide : [] ∈ [[], ['-']]) hds .none .none
    rw [List.nil_append, List.append_nil, List.append_nil] at hbare
    exact hbare.passed
  | number hsign hwhole hfraction hexponent =>
    exact (bare_numeral hsign hwhole hfraction hexponent).passed
  | string t =>
    refine Bare.passed ⟨_, _, rfl, by decide, by decide, by decide, fun rest _ => ?_⟩
    rw [Marked.write_append, List.nil_append]
    exact skipString_body t.written rest
  | list behind hs ih =>
    exact passed_row Item.write_append (fun i hi => passed_item (hs i hi) (ih i hi)) behind
  | object behind _ ih =>
    exact passed_row Member.write_append (fun m hm => passed_member (ih m hm)) behind

/-- A document is stepped over, blanks in front of it included, whatever it is. -/
theorem skipValue_spelled {m : Meaning} (h : Spells m s) (blanks : Blanks) {rest : List Char}
    (hrest : Leaves rest) : skipValue (blanks.1 ++ (s ++ rest)) = .ok rest := by
  obtain ⟨k, hk, htakes⟩ := passed_spelled h
  have hlength : (blanks.1 ++ (s ++ rest)).length = blanks.1.length + (s.length + rest.length) := by
    rw [List.length_append, List.length_append]
  obtain ⟨fuel, hfuel⟩ : ∃ fuel, 2 * (blanks.1 ++ (s ++ rest)).length + 2 = fuel + 1 + k :=
    ⟨2 * (blanks.1 ++ (s ++ rest)).length + 1 - k, by omega⟩
  rw [skipValue, hfuel]
  exact htakes blanks [] rest hrest fuel

end PromptRunner.Json
