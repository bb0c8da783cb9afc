import PromptRunner.Proofs.Json.Tokens

/-!
# Only documents are stepped over, and a document means one thing

A reader that steps over a value keeps no more than a stack of open brackets, and answers as soon as
the stack is empty again. What it has passed by then is a document of the grammar: the converse of
`skipValue_spelled`. In the middle of a value this says nothing yet, so the induction over the steps
carries what the stack still demands of the text (`Closes`): for each open bracket the rest of a row
and what closes it.

With both directions the stepping reader settles a question about the grammar alone. Where a
document stands in front of something that does not go on with a numeral, its end is found by
stepping over it; so two documents at one place end at the same place, two rows of parts that are
written alike have parts that are written alike, and no text means two things (`Spells.unique`).
-/

namespace PromptRunner.Json

variable {s r t u : List Char} {m m' : Meaning} {b : Bracket} {first : Bool}

/-! ## Values without brackets -/

theorem of_skipNumber (h : skipNumber s = .ok r) :
    ∃ whole fraction exponent, s = whole ++ (fraction ++ (exponent ++ r)) ∧ Whole whole ∧
      Fraction fraction ∧ Exponent exponent := by
  unfold skipNumber at h
  match hscan : scanNumeral .badNumber s with
  | .ok (n, rest) =>
    rw [hscan] at h
    cases h
    obtain ⟨whole, fraction, exponent, hs, hwhole, hfraction, hexponent, -⟩ := of_scanNumeral hscan
    exact ⟨whole, fraction, exponent, hs, hwhole, hfraction, hexponent⟩
  | .error e =>
    rw [hscan] at h
    cases h

/-- A numeral is a document, with a sign or without. -/
theorem exists_spells_numeral (sign : List Char) {whole fraction exponent : List Char}
    (hsign : sign ∈ [[], ['-']]) (hwhole : Whole whole) (hfraction : Fraction fraction)
    (hexponent : Exponent exponent) :
    ∃ m, Spells m (sign ++ (whole ++ (fraction ++ exponent))) := by
  by_cases hother : sign ≠ [] ∨ fraction ≠ [] ∨ exponent ≠ []
  · exact ⟨_, .number hsign hwhole hfraction hexponent hother⟩
  · simp only [not_or, not_not] at hother
    obtain ⟨rfl, rfl, rfl⟩ := hother
    refine ⟨.natural (Nat.ofDigitChars 10 whole 0), ?_⟩
    rw [List.nil_append, List.append_nil, List.append_nil]
    exact .natural hwhole

theorem of_skipScalar (h : skipScalar s = .ok r) : ∃ m t, s = t ++ r ∧ Spells m t := by
  unfold skipScalar at h
  split at h
  · cases h
  · next c u =>
    split_ifs at h with hnull hyes hno hminus hdigit hquote
    · exact ⟨_, _, by rw [hnull, of_readWord h]; rfl, .null⟩
    · exact ⟨_, _, by rw [hyes, of_readWord h]; rfl, .yes⟩
    · exact ⟨_, _, by rw [hno, of_readWord h]; rfl, .no⟩
    · obtain ⟨whole, fraction, exponent, rfl, hwhole, hfraction, hexponent⟩ := of_skipNumber h
      obtain ⟨m, hm⟩ := exists_spells_numeral ['-'] (by simp) hwhole hfraction hexponent
      exact ⟨m, _, by simp [hminus], hm⟩
    · obtain ⟨whole, fraction, exponent, hs, hwhole, hfraction, hexponent⟩ := of_skipNumber h
      obtain ⟨m, hm⟩ := exists_spells_numeral [] (by simp) hwhole hfraction hexponent
      exact ⟨m, _, by simp [hs], hm⟩
    · obtain ⟨body, rfl, hbody⟩ := of_skipString h
      obtain ⟨w, rfl⟩ := exists_marked hbody
      refine ⟨_, _, ?_, .string w⟩
      rw [Marked.write_append, List.nil_append, Marked.write, hquote]

/-! ## Open brackets -/

/-- What is inside a bracket, up to and with what closes it. -/
def Rows (b : Bracket) (first : Bool) (s r : List Char) : Prop :=
  match b with
  | .list => ∃ items : List Item, (∀ i ∈ items, Spells i.meaning i.text) ∧
      Row Item.write ']' first items s r
  | .object => ∃ members : List Member, (∀ m ∈ members, Spells m.value.meaning m.value.text) ∧
      Row Member.write '\x7d' first members s r

theorem Rows.closed (b : Bracket) (behind : Blanks) :
    Rows b first (behind.1 ++ b.closing :: r) r := by
  cases b with
  | list => exact ⟨[], nofun, Row.closed behind⟩
  | object => exact ⟨[], nofun, Row.closed behind⟩

theorem Entered.blanks {before : Blanks} (h : Entered first s (before.1 ++ t)) :
    Entered first s t := by
  generalize hpart : before.1 ++ t = part at h
  cases h with
  | first lead =>
    have hjoin := Entered.first (lead.join before) t
    rwa [Blanks.join, List.append_assoc, hpart] at hjoin
  | next lead between =>
    have hjoin := Entered.next lead (between.join before) t
    rwa [Blanks.join, List.append_assoc, hpart] at hjoin

/-- One more part in front of what is inside a bracket. -/
theorem Rows.part {before : Blanks} {v : List Char} (hentered : Entered first s t)
    (hmember : memberText b t = .ok (before.1 ++ (v ++ u))) (hv : Spells m v)
    (hrow : Rows b false u r) : Rows b first s r := by
  cases b with
  | list =>
    obtain ⟨items, hitems, hrow⟩ := hrow
    cases hmember
    obtain ⟨i, hi, hrow⟩ := Row.item (m := m) hentered hrow
    obtain ⟨htext, hmeaning⟩ := Prod.mk.inj hi
    refine ⟨i :: items, List.forall_mem_cons.2 ⟨?_, hitems⟩, hrow⟩
    rwa [htext, hmeaning]
  | object =>
    obtain ⟨members, hmembers, hrow⟩ := hrow
    obtain ⟨lead, w, colon, rfl⟩ := of_skipKey hmember
    obtain ⟨part, -, hvalue, hrow⟩ := Row.member (m := m) hentered.blanks hrow
    obtain ⟨htext, hmeaning⟩ := Prod.mk.inj hvalue
    refine ⟨part :: members, List.forall_mem_cons.2 ⟨?_, hmembers⟩, hrow⟩
    rwa [htext, hmeaning]

theorem Rows.exists_spells (h : Rows b true s r) :
    ∃ m t, b.opening :: s = t ++ r ∧ Spells m t := by
  cases b with
  | list =>
    obtain ⟨items, hitems, hrow⟩ := h
    obtain ⟨t, hs, ht⟩ := spells_of_items hitems hrow
    exact ⟨_, t, hs, ht⟩
  | object =>
    obtain ⟨members, hmembers, hrow⟩ := h
    obtain ⟨t, hs, ht⟩ := spells_of_members hmembers hrow
    exact ⟨_, t, hs, ht⟩

/-- What the open brackets demand of the text, the innermost first. -/
def Closes (first : Bool) : List Bracket → List Char → List Char → Prop
  | [], s, r => s = r
  | b :: stack, s, r => ∃ t, Rows b first s t ∧ Closes false stack t r

/-- In front of a value the steps pass a document first, and elsewhere only what is demanded. -/
theorem of_skipSteps (fuel : Nat) :
    (∀ {stack s r}, skipSteps fuel .value stack s = .ok r →
      ∃ (before : Blanks) (m : Meaning) (t u : List Char),
        s = before.1 ++ (t ++ u) ∧ Spells m t ∧ Closes false stack u r) ∧
    ∀ {first stack s r}, skipSteps fuel (rowStage first) stack s = .ok r →
      Closes first stack s r := by
  induction fuel with
  | zero =>
    constructor
    · intro stack s r h
      cases h
    · intro first stack s r h
      cases first <;> cases h
  | succ fuel ih =>
    obtain ⟨ihvalue, ihrow⟩ := ih
    constructor
    · intro stack s r h
      -- a bracket is entered, anything else is passed at once
      have hbracket : ∀ {b : Bracket} {u : List Char},
          skipSteps fuel .opened (b :: stack) u = .ok r →
            ∃ m t w, b.opening :: u = t ++ w ∧ Spells m t ∧ Closes false stack w r := by
        intro b u hopened
        obtain ⟨w, hrow, hcloses⟩ := @ihrow true _ _ _ hopened
        obtain ⟨m, t, hu, ht⟩ := hrow.exists_spells
        exact ⟨m, t, w, hu, ht, hcloses⟩
      simp only [skipSteps] at h
      split at h
      · cases h
      · next c u hskip =>
        obtain ⟨-, before, rfl⟩ := of_skipSpace hskip
        split_ifs at h with hlist hobject
        · obtain ⟨m, t, w, hu, ht, hcloses⟩ := hbracket h
          exact ⟨before, m, t, w, by rw [hlist, ← hu]; rfl, ht, hcloses⟩
        · obtain ⟨m, t, w, hu, ht, hcloses⟩ := hbracket h
          exact ⟨before, m, t, w, by rw [hobject, ← hu]; rfl, ht, hcloses⟩
        · split at h
          · next w hscalar =>
            obtain ⟨m, t, hu, ht⟩ := of_skipScalar hscalar
            exact ⟨before, m, t, w, by rw [hu], ht, @ihrow false _ _ _ h⟩
          · cases h
    · intro first stack s r h
      have hstage : rowStage first ≠ .value := by cases first <;> decide
      cases stack with
      | nil =>
        cases first with
        | true =>
          cases h
          rfl
        | false =>
          cases h
          rfl
      | cons b stack =>
        rw [skipSteps_inside hstage] at h
        split at h
        · cases h
        · next c u hskip =>
          obtain ⟨-, before, rfl⟩ := of_skipSpace hskip
          split_ifs at h with hclose hopened hcomma
          · subst hclose
            exact ⟨u, Rows.closed b before, @ihrow false _ _ _ h⟩
          · have hfirst : first = true := by
              cases first with
              | true => rfl
              | false => cases hopened
            split at h
            · next w hmember =>
              obtain ⟨lead, m, t, v, rfl, ht, x, hrow, hcloses⟩ := ihvalue h
              rw [hfirst]
              exact ⟨x, Rows.part (.first before _) hmember ht hrow, hcloses⟩
            · cases h
          · have hfirst : first = false := by
              cases first with
              | true => exact absurd rfl hopened
              | false => rfl
            split at h
            · next w hmember =>
              obtain ⟨lead, m, t, v, rfl, ht, x, hrow, hcloses⟩ := ihvalue h
              rw [hfirst, hcomma]
              exact ⟨x, Rows.part (.next before .none _) hmember ht hrow, hcloses⟩
            · cases h

/-- What is stepped over is a document, with blanks in front of it. -/
theorem of_skipValue (h : skipValue s = .ok r) :
    ∃ (before : Blanks) (m : Meaning) (t : List Char), s = before.1 ++ (t ++ r) ∧ Spells m t := by
  obtain ⟨before, m, t, u, hs, ht, rfl⟩ := (of_skipSteps _).1 h
  exact ⟨before, m, t, hs, ht⟩

/-! ## Two documents at one place -/

/-- A document ends where stepping over it ends. -/
theorem Spells.ends_together {before before' : Blanks} (h : Spells m t) (h' : Spells m' u)
    (hr : Leaves r) {r' : List Char} (hr' : Leaves r')
    (heq : before.1 ++ (t ++ r) = before'.1 ++ (u ++ r')) : t = u ∧ r = r' := by
  have hskip := skipValue_spelled h before hr
  rw [heq, skipValue_spelled h' before' hr'] at hskip
  obtain rfl : r' = r := Except.ok.inj hskip
  refine ⟨?_, rfl⟩
  obtain ⟨c, t, rfl, hc, -⟩ := h.exists_cons
  obtain ⟨d, u, rfl, hd, -⟩ := h'.exists_cons
  have hspace := congrArg skipSpace heq
  rw [skipSpace_blanks, skipSpace_blanks, List.cons_append, List.cons_append,
    skipSpace_of_not_space hc, skipSpace_of_not_space hd, ← List.cons_append,
    ← List.cons_append] at hspace
  exact List.append_cancel_right hspace

/-- A string ends where stepping over it ends. -/
theorem Marked.ends_together {w w' : Marked} {before before' : Blanks} {r' : List Char}
    (heq : before.1 ++ w.write r = before'.1 ++ w'.write r') : w.text = w'.text ∧ r = r' := by
  have hspace := congrArg skipSpace heq
  have hmark : isSpace '"' = false := rfl
  rw [skipSpace_blanks, skipSpace_blanks, Marked.write, Marked.write, skipSpace_of_not_space hmark,
    skipSpace_of_not_space hmark, List.cons.injEq] at hspace
  have hskip := skipString_body w.written r
  rw [hspace.2, skipString_body w'.written] at hskip
  obtain rfl : r' = r := Except.ok.inj hskip
  have hbody : w.body = w'.body := List.append_cancel_right hspace.2
  refine ⟨Option.ext fun text => ?_, rfl⟩
  rw [w.meant, w'.meant, hbody]

theorem skipSpace_sequence_items {items : List Item} (h : ∀ i ∈ items, Spells i.meaning i.text)
    (before behind : Blanks) (r : List Char) :
    skipSpace (before.1 ++ sequence Item.write first items (behind.1 ++ ']' :: r)) =
      match first, items with
      | _, [] => ']' :: r
      | true, i :: items =>
        i.text ++ (i.behind.1 ++ sequence Item.write false items (behind.1 ++ ']' :: r))
      | false, i :: items =>
        ',' :: i.write (sequence Item.write false items (behind.1 ++ ']' :: r)) := by
  rw [skipSpace_blanks]
  cases items with
  | nil =>
    rw [sequence, skipSpace_blanks]
    exact skipSpace_of_not_space rfl r
  | cons i items =>
    cases first with
    | true =>
      show skipSpace (i.write _) = _
      obtain ⟨c, v, hc, hspace, -⟩ := (h i List.mem_cons_self).exists_cons
      rw [Item.write, skipSpace_blanks]
      show skipSpace (i.text ++ _) = i.text ++ _
      rw [hc]
      exact skipSpace_of_not_space hspace _
    | false => exact skipSpace_of_not_space rfl _

/-- Rows of documents that are written alike are rows of the same documents. -/
theorem texts_of_sequence {items items' : List Item} (h : ∀ i ∈ items, Spells i.meaning i.text)
    (h' : ∀ i ∈ items', Spells i.meaning i.text) {before before' behind behind' : Blanks}
    {r' : List Char}
    (heq : before.1 ++ sequence Item.write first items (behind.1 ++ ']' :: r) =
      before'.1 ++ sequence Item.write first items' (behind'.1 ++ ']' :: r')) :
    items.map (·.text) = items'.map (·.text) := by
  have hleaves : ∀ {items : List Item} {behind : Blanks} {r : List Char},
      Leaves (sequence Item.write false items (behind.1 ++ ']' :: r)) := fun {items behind r} =>
    leaves_sequence ((leaves_cons (by decide) r).blanks behind)
  induction items generalizing items' first before before' with
  | nil =>
    have hspace := congrArg skipSpace heq
    rw [skipSpace_sequence_items h, skipSpace_sequence_items h'] at hspace
    cases items' with
    | nil => rfl
    | cons i' items' =>
      obtain ⟨c, v, hc, -, hne⟩ := (h' i' List.mem_cons_self).exists_cons
      cases first with
      | true =>
        simp only [hc, List.cons_append, List.cons.injEq] at hspace
        exact absurd hspace.1.symm hne
      | false => exact absurd (List.cons.inj hspace).1 (by decide)
  | cons i items ih =>
    have hspace := congrArg skipSpace heq
    rw [skipSpace_sequence_items h, skipSpace_sequence_items h'] at hspace
    obtain ⟨hi, hitems⟩ := List.forall_mem_cons.1 h
    cases items' with
    | nil =>
      obtain ⟨c, v, hc, -, hne⟩ := hi.exists_cons
      cases first with
      | true =>
        simp only [hc, List.cons_append, List.cons.injEq] at hspace
        exact absurd hspace.1 hne
      | false => exact absurd (List.cons.inj hspace).1 (by decide)
    | cons i' items' =>
      obtain ⟨hi', hitems'⟩ := List.forall_mem_cons.1 h'
      have hpart : i.write (sequence Item.write false items (behind.1 ++ ']' :: r)) =
            i'.write (sequence Item.write false items' (behind'.1 ++ ']' :: r')) ∨
          Blanks.none.1 ++ (i.text ++ (i.behind.1 ++
              sequence Item.write false items (behind.1 ++ ']' :: r))) =
            Blanks.none.1 ++ (i'.text ++ (i'.behind.1 ++
              sequence Item.write false items' (behind'.1 ++ ']' :: r'))) := by
        cases first with
        | true => exact .inr hspace
        | false => exact .inl (List.cons.inj hspace).2
      obtain ⟨htext, hrest⟩ : i.text = i'.text ∧
          i.behind.1 ++ sequence Item.write false items (behind.1 ++ ']' :: r) =
            i'.behind.1 ++ sequence Item.write false items' (behind'.1 ++ ']' :: r') := by
        rcases hpart with hpart | hpart
        · exact hi.ends_together hi' (hleaves.blanks _) (hleaves.blanks _) hpart
        · exact hi.ends_together hi' (hleaves.blanks _) (hleaves.blanks _) hpart
      rw [List.map_cons, List.map_cons, htext, ih hitems hitems' hrest]

/-- A member as far as a reader is concerned: its name, and its value. -/
def Member.entry (m : Member) : Option String × List Char := (m.name.text, m.value.text)

theorem skipSpace_sequence_members (members : List Member) (before behind : Blanks)
    (r : List Char) :
    skipSpace (before.1 ++ sequence Member.write first members (behind.1 ++ '\x7d' :: r)) =
      match first, members with
      | _, [] => '\x7d' :: r
      | true, m :: members =>
        m.name.write (m.tail (sequence Member.write false members (behind.1 ++ '\x7d' :: r)))
      | false, m :: members =>
        ',' :: m.write (sequence Member.write false members (behind.1 ++ '\x7d' :: r)) := by
  rw [skipSpace_blanks]
  cases members with
  | nil =>
    rw [sequence, skipSpace_blanks]
    exact skipSpace_of_not_space rfl r
  | cons m members =>
    cases first with
    | true =>
      rw [sequence, Member.write, skipSpace_blanks]
      exact skipSpace_of_not_space rfl _
    | false => exact skipSpace_of_not_space rfl _

/-- Rows of members that are written alike have the same names and the same values. -/
theorem entries_of_sequence {members members' : List Member}
    (h : ∀ m ∈ members, Spells m.value.meaning m.value.text)
    (h' : ∀ m ∈ members', Spells m.value.meaning m.value.text)
    {before before' behind behind' : Blanks} {r' : List Char}
    (heq : before.1 ++ sequence Member.write first members (behind.1 ++ '\x7d' :: r) =
      before'.1 ++ sequence Member.write first members' (behind'.1 ++ '\x7d' :: r')) :
    members.map (·.entry) = members'.map (·.entry) := by
  have hleaves : ∀ {members : List Member} {behind : Blanks} {r : List Char},
      Leaves (sequence Member.write false members (behind.1 ++ '\x7d' :: r)) :=
    fun {members behind r} => leaves_sequence ((leaves_cons (by decide) r).blanks behind)
  induction members generalizing members' first before before' with
  | nil =>
    have hspace := congrArg skipSpace heq
    rw [skipSpace_sequence_members, skipSpace_sequence_members] at hspace
    cases members' with
    | nil => rfl
    | cons m' members' => cases first <;> exact absurd (List.cons.inj hspace).1 (by decide)
  | cons m members ih =>
    have hspace := congrArg skipSpace heq
    rw [skipSpace_sequence_members, skipSpace_sequence_members] at hspace
    obtain ⟨hm, hmembers⟩ := List.forall_mem_cons.1 h
    cases members' with
    | nil => cases first <;> exact absurd (List.cons.inj hspace).1 (by decide)
    | cons m' members' =>
      obtain ⟨hm', hmembers'⟩ := List.forall_mem_cons.1 h'
      obtain ⟨hname, htail⟩ : m.name.text = m'.name.text ∧
          m.tail (sequence Member.write false members (behind.1 ++ '\x7d' :: r)) =
            m'.tail (sequence Member.write false members' (behind'.1 ++ '\x7d' :: r')) := by
        cases first with
        | true =>
          exact Marked.ends_together (show Blanks.none.1 ++ m.name.write _ =
            Blanks.none.1 ++ m'.name.write _ from hspace)
        | false => exact Marked.ends_together (List.cons.inj hspace).2
      -- behind the name there is a colon, and behind the colon the value
      have hvalue := congrArg readColon htail
      rw [Member.readColon_tail, Member.readColon_tail, Except.ok.injEq] at hvalue
      obtain ⟨htext, hrest⟩ := hm.ends_together hm' (hleaves.blanks _) (hleaves.blanks _) hvalue
      rw [List.map_cons, List.map_cons, Member.entry, Member.entry, hname, htext,
        ih hmembers hmembers' hrest]

/-! ## One meaning -/

/-- How a document of this meaning begins. -/
def Meaning.Begins : Meaning → Char → Prop
  | .null, c => c = 'n'
  | .boolean true, c => c = 't'
  | .boolean false, c => c = 'f'
  | .natural _, c => isDigit c = true
  | .number, c => c = '-' ∨ isDigit c = true
  | .string _, c => c = '"'
  | .list _, c => c = '['
  | .object _, c => c = '\x7b'

/-- The first character tells the kind of a document, except for the two kinds of numerals. -/
theorem Meaning.Begins.kind {c : Char} (h : m.Begins c) :
    match c with
    | 'n' => m = .null
    | 't' => m = .boolean true
    | 'f' => m = .boolean false
    | '"' => ∃ text, m = .string text
    | '[' => ∃ items, m = .list items
    | '\x7b' => ∃ members, m = .object members
    | _ => m = .number ∨ ∃ n, m = .natural n := by
  match m, c, h with
  | .null, _, rfl => rfl
  | .boolean true, _, rfl => rfl
  | .boolean false, _, rfl => rfl
  | .string text, _, rfl => exact ⟨text, rfl⟩
  | .list items, _, rfl => exact ⟨items, rfl⟩
  | .object members, _, rfl => exact ⟨members, rfl⟩
  | .natural n, c, h =>
    have hc : isDigit c = true := h
    split
    case h_7 => exact .inr ⟨n, rfl⟩
    all_goals exact absurd hc (by decide)
  | .number, c, h =>
    have hc : c = '-' ∨ isDigit c = true := h
    split
    case h_7 => exact .inl rfl
    all_goals exact absurd hc (by decide)

theorem Meaning.Begins.numeral {c : Char} (h : m.Begins c) (hc : c = '-' ∨ isDigit c = true) :
    m = .number ∨ ∃ n, m = .natural n := by
  have hkind := h.kind
  split at hkind
  case h_7 => exact hkind
  all_goals exact absurd hc (by decide)

theorem Spells.begins {c : Char} (h : Spells m (c :: r)) : m.Begins c := by
  generalize ht : c :: r = t at h
  cases h with
  | null => exact (List.cons.inj ht).1
  | yes => exact (List.cons.inj ht).1
  | no => exact (List.cons.inj ht).1
  | natural h =>
    obtain ⟨d, s, rfl, hd⟩ := h.exists_cons
    obtain ⟨rfl, -⟩ := List.cons.inj ht
    exact hd
  | @number sign whole fraction exponent hsign hwhole =>
    obtain ⟨d, s, rfl, hd⟩ := hwhole.exists_cons
    rw [List.mem_pair] at hsign
    rcases hsign with rfl | rfl
    · obtain ⟨rfl, -⟩ := List.cons.inj ht
      exact .inr hd
    · exact .inl (List.cons.inj ht).1
  | string => exact (List.cons.inj ht).1
  | list => exact (List.cons.inj ht).1
  | object => exact (List.cons.inj ht).1

/-- What a numeral has besides its whole digits shows. -/
theorem Spells.exists_not_digit (h : Spells .number t) : ∃ c ∈ t, isDigit c = false := by
  generalize hm : Meaning.number = m at h
  cases h <;> cases hm
  next hsign hwhole hfraction hexponent hother =>
    rw [List.mem_pair] at hsign
    rcases hother with hother | hother | hother
    · obtain rfl := hsign.resolve_left hother
      exact ⟨'-', by simp, rfl⟩
    · cases hfraction with
      | none => exact absurd rfl hother
      | digits => exact ⟨'.', by simp, rfl⟩
    · cases hexponent with
      | none => exact absurd rfl hother
      | @digits mark sign ds hmark =>
        refine ⟨mark, by simp, ?_⟩
        rw [List.mem_pair] at hmark
        rcases hmark with rfl | rfl <;> rfl

theorem Spells.of_list {ms : List Meaning} (h : Spells (.list ms) t) :
    ∃ (items : List Item) (behind : Blanks), ms = items.map (·.meaning) ∧
      (∀ i ∈ items, Spells i.meaning i.text) ∧
      t = '[' :: sequence Item.write true items (behind.1 ++ [']']) := by
  cases h with
  | list behind h => exact ⟨_, behind, rfl, h, rfl⟩

/-- Parts that are written alike and each mean one thing mean the same. -/
theorem map_meaning_eq {parts parts' : List α} {entry : α → β} {meaning : α → γ}
    (hone : ∀ p ∈ parts, ∀ p' ∈ parts', entry p = entry p' → meaning p = meaning p')
    (h : parts.map entry = parts'.map entry) : parts.map meaning = parts'.map meaning := by
  induction parts generalizing parts' with
  | nil =>
    cases parts' with
    | nil => rfl
    | cons p' parts' => cases h
  | cons p parts ih =>
    cases parts' with
    | nil => cases h
    | cons p' parts' =>
      obtain ⟨hp, hparts⟩ := List.cons.inj h
      have hlater := ih (fun q hq q' hq' =>
        hone q (List.mem_cons_of_mem _ hq) q' (List.mem_cons_of_mem _ hq')) hparts
      rw [List.map_cons, List.map_cons, hlater,
        hone p List.mem_cons_self p' List.mem_cons_self hp]

theorem Spells.unique_of_natural {n : Nat} (h : Spells (.natural n) t) (h' : Spells m' t) :
    m' = .natural n := by
  obtain ⟨hwhole, rfl⟩ := h.of_natural
  obtain ⟨c, s, rfl, hc⟩ := hwhole.exists_cons
  rcases h'.begins.numeral (.inr hc) with rfl | ⟨n', rfl⟩
  · obtain ⟨d, hd, hother⟩ := h'.exists_not_digit
    rw [hwhole.digits d hd] at hother
    cases hother
  · rw [(h'.of_natural).2]

theorem Spells.unique_of_number (h : Spells .number t) (h' : Spells m' t) : m' = .number := by
  obtain ⟨c, s, rfl, -⟩ := h.exists_cons
  rcases h'.begins.numeral h.begins with rfl | ⟨n', rfl⟩
  · rfl
  · cases h'.unique_of_natural h

/-- No text means two things. -/
theorem Spells.unique (h : Spells m t) (h' : Spells m' t) : m = m' := by
  induction h generalizing m' with
  | null => exact h'.begins.kind.symm
  | yes => exact h'.begins.kind.symm
  | no => exact h'.begins.kind.symm
  | natural h => exact ((Spells.natural h).unique_of_natural h').symm
  | number hsign hwhole hfraction hexponent hother =>
    exact ((Spells.number hsign hwhole hfraction hexponent hother).unique_of_number h').symm
  | string w =>
    obtain ⟨text, rfl⟩ := h'.begins.kind
    obtain ⟨w', rfl, heq⟩ := h'.of_string
    rw [(Marked.ends_together (show Blanks.none.1 ++ w.write [] = Blanks.none.1 ++ w'.write []
      from heq)).1]
  | @list items behind h ih =>
    obtain ⟨ms, rfl⟩ := h'.begins.kind
    obtain ⟨items', behind', rfl, h', heq⟩ := h'.of_list
    have htexts := texts_of_sequence h h' (show Blanks.none.1 ++ sequence Item.write true items _ =
      Blanks.none.1 ++ sequence Item.write true items' _ from (List.cons.inj heq).2)
    refine congrArg Meaning.list (map_meaning_eq (fun i hi i' hi' htext => ih i hi ?_) htexts)
    rw [htext]
    exact h' i' hi'
  | @object members behind h ih =>
    obtain ⟨ms, rfl⟩ := h'.begins.kind
    obtain ⟨members', behind', rfl, h', heq⟩ := h'.of_object
    have hentries := entries_of_sequence h h' (show Blanks.none.1 ++
      sequence Member.write true members _ =
        Blanks.none.1 ++ sequence Member.write true members' _ from (List.cons.inj heq).2)
    refine congrArg Meaning.object (map_meaning_eq (fun m hm m' hm' hentry => ?_) hentries)
    obtain ⟨hname, htext⟩ := Prod.mk.inj hentry
    refine Prod.ext hname (ih m hm ?_)
    rw [htext]
    exact h' m' hm'

end PromptRunner.Json
