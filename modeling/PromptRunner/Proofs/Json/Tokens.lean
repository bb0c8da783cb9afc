import PromptRunner.Proofs.Json.Reading

/-!
# What a reader has passed

A reader answers with what is left of its text. Here it is said what it has passed, in the words of
the grammar: a word, a string, a numeral, or what stands between two values. These are the converses
of what is said of spelled texts, one for each of the small readers, and none of them asks what
follows.

The parts between values meet in one place. A reader that stands in front of a row of parts comes to
the next of them over blanks, and over a separator if it is not the first (`Entered`); and where
what it has passed is a row of parts up to a closing bracket (`Row`), one more part in front makes a
row again.
-/

namespace PromptRunner.Json

variable {s r t : List Char}

/-! ## Blanks and words -/

/-- Blanks behind blanks. -/
def Blanks.join (a b : Blanks) : Blanks where
  val := a.1 ++ b.1
  property c hc := (List.mem_append.1 hc).elim (a.2 c) (b.2 c)

theorem exists_skipSpace (s : List Char) : ∃ before : Blanks, s = before.1 ++ skipSpace s :=
  ⟨⟨s.takeWhile isSpace, fun _ => List.mem_takeWhile_imp⟩, List.takeWhile_append_dropWhile.symm⟩

theorem of_skipSpace {c : Char} (h : skipSpace s = c :: r) :
    isSpace c = false ∧ ∃ before : Blanks, s = before.1 ++ c :: r := by
  obtain ⟨before, hs⟩ := exists_skipSpace s
  rw [h] at hs
  refine ⟨?_, before, hs⟩
  have hhead := List.head?_dropWhile_not isSpace s
  rw [skipSpace] at h
  rw [h] at hhead
  simpa using hhead

theorem of_readWord {w : List Char} (h : readWord w s = .ok r) : s = w ++ r := by
  induction w generalizing s with
  | nil =>
    cases h
    rfl
  | cons c w ih =>
    cases s with
    | nil => cases h
    | cons d s =>
      rw [readWord] at h
      split at h
      · next hc => rw [hc, ih h, List.cons_append]
      · cases h

/-! ## Strings -/

theorem of_prepend {c : Char} {text : List Char}
    (h : (readString s).prepend c = .ok (text, r)) :
    ∃ text', text = c :: text' ∧ readString s = .ok (text', r) := by
  match hread : readString s with
  | .ok (text', r') =>
    rw [hread] at h
    cases h
    exact ⟨text', rfl, rfl⟩
  | .error e =>
    rw [hread] at h
    cases h

theorem of_readString {text : List Char} (h : readString s = .ok (text, r)) :
    ∃ body, s = body ++ '"' :: r ∧ SpellsText text body := by
  fun_induction readString s generalizing text
  case case2 =>
    cases h
    exact ⟨[], rfl, .nil⟩
  -- two halves of a pair
  case case9 hn hlow hhigh _ _ _ _ _ _ hm hsecond _ ih =>
    obtain ⟨text, rfl, hread⟩ := of_prepend h
    obtain ⟨body, rfl, hbody⟩ := ih hread
    exact ⟨_, rfl, .pair hn hhigh hm hsecond hbody⟩
  case case14 hn hlow hhigh _ ih =>
    obtain ⟨text, rfl, hread⟩ := of_prepend h
    obtain ⟨body, rfl, hbody⟩ := ih hread
    exact ⟨_, rfl, .numbered hn (eq_false_of_ne_true hlow) (eq_false_of_ne_true hhigh) hbody⟩
  case case16 hc _ ih =>
    obtain ⟨text, rfl, hread⟩ := of_prepend h
    obtain ⟨body, rfl, hbody⟩ := ih hread
    exact ⟨_, rfl, .short hc hbody⟩
  case case19 hquote hslash hcontrol ih =>
    obtain ⟨text, rfl, hread⟩ := of_prepend h
    obtain ⟨body, rfl, hbody⟩ := ih hread
    exact ⟨_, rfl, .plain hquote hslash (eq_false_of_ne_true hcontrol) hbody⟩
  all_goals cases h

theorem of_skipString (h : skipString s = .ok r) : ∃ body, s = body ++ '"' :: r ∧ Body body := by
  fun_induction skipString s
  case case2 =>
    cases h
    exact ⟨[], rfl, .nil⟩
  case case5 hn _ ih =>
    obtain ⟨body, rfl, hbody⟩ := ih h
    exact ⟨_, rfl, .numbered hn hbody⟩
  case case7 hc _ ih =>
    obtain ⟨body, rfl, hbody⟩ := ih h
    exact ⟨_, rfl, .short hc hbody⟩
  case case10 hquote hslash hcontrol ih =>
    obtain ⟨body, rfl, hbody⟩ := ih h
    exact ⟨_, rfl, .plain hquote hslash (eq_false_of_ne_true hcontrol) hbody⟩
  all_goals cases h

/-- A text as it was spelled. -/
def Marked.spelled (text body : List Char) (h : SpellsText text body) : Marked where
  text := some (String.ofList text)
  body := body
  written := h.body
  meant t := by
    constructor
    · rintro ⟨⟩
      rwa [String.toList_ofList]
    · intro h'
      rw [h.unique h', String.ofList_toList]

/-- Whether a string is a text or not, it is a string of the grammar. -/
theorem exists_marked {body : List Char} (h : Body body) : ∃ w : Marked, w.body = body := by
  by_cases htext : ∃ text, SpellsText text body
  · obtain ⟨text, htext⟩ := htext
    exact ⟨.spelled text body htext, rfl⟩
  · refine ⟨⟨none, body, h, fun t => iff_of_false nofun fun ht => htext ⟨_, ht⟩⟩, rfl⟩

theorem exists_marked_of_readString {text : List Char} (h : readString s = .ok (text, r)) :
    ∃ w : Marked, w.text = some (String.ofList text) ∧ '"' :: s = w.write r := by
  obtain ⟨body, rfl, hbody⟩ := of_readString h
  exact ⟨.spelled text body hbody, rfl, rfl⟩

/-! ## Numerals -/

theorem of_spanDigits {ds : List Char} (h : spanDigits s = (ds, r)) :
    s = ds ++ r ∧ ∀ c ∈ ds, isDigit c = true := by
  obtain ⟨rfl, rfl⟩ := Prod.mk.inj h
  exact ⟨List.takeWhile_append_dropWhile.symm, fun _ => List.mem_takeWhile_imp⟩

theorem of_scanWhole {short : Problem} {ds : List Char} (h : scanWhole short s = .ok (ds, r)) :
    s = ds ++ r ∧ Whole ds := by
  have hzero : Whole ['0'] := ⟨List.all_eq_true.1 rfl, .inl rfl⟩
  unfold scanWhole at h
  split at h
  · cases h
  · next c t =>
    split at h
    · next hc =>
      subst hc
      split at h
      · split at h
        · cases h
        · cases h
          exact ⟨rfl, hzero⟩
      · cases h
        exact ⟨rfl, hzero⟩
    · next hc =>
      split at h
      · next hdigit =>
        obtain ⟨hs, hds⟩ := of_spanDigits (Except.ok.inj h)
        refine ⟨hs, hds, .inr ?_⟩
        -- the first character is among the digits, and it is no zero
        cases ds with
        | nil =>
          have htake := (Prod.mk.inj (Except.ok.inj h)).1
          rw [List.takeWhile_cons_of_pos hdigit] at htake
          cases htake
        | cons d ds =>
          obtain ⟨rfl, -⟩ := List.cons.inj hs
          exact ⟨List.cons_ne_nil _ _, fun hhead => hc (Option.some.inj hhead)⟩
      · cases h

theorem of_scanFraction {short : Problem} {ds : List Char}
    (h : scanFraction short s = .ok (ds, r)) :
    ∃ fraction, s = fraction ++ r ∧ Fraction fraction ∧ ds = fraction.drop 1 := by
  unfold scanFraction at h
  split at h
  · next t =>
    match hspan : spanDigits t with
    | ([], []) =>
      rw [hspan] at h
      cases h
    | ([], c :: t') =>
      rw [hspan] at h
      cases h
    | (d :: ds, t') =>
      rw [hspan] at h
      cases h
      obtain ⟨rfl, hds⟩ := of_spanDigits hspan
      exact ⟨'.' :: d :: ds, rfl, .digits (List.cons_ne_nil _ _) hds, rfl⟩
  · cases h
    exact ⟨[], rfl, .none, rfl⟩

theorem of_exponentDigits {short : Problem} {negative : Bool} {x : Option (Bool × List Char)}
    (h : exponentDigits short negative s = .ok (x, r)) :
    ∃ ds, s = ds ++ r ∧ ds ≠ [] ∧ (∀ c ∈ ds, isDigit c = true) ∧ x = some (negative, ds) := by
  unfold exponentDigits at h
  match hspan : spanDigits s with
  | ([], []) =>
    rw [hspan] at h
    cases h
  | ([], c :: t') =>
    rw [hspan] at h
    cases h
  | (d :: ds, t') =>
    rw [hspan] at h
    cases h
    obtain ⟨hs, hds⟩ := of_spanDigits hspan
    exact ⟨d :: ds, hs, List.cons_ne_nil _ _, hds, rfl⟩

theorem exists_exponentSign (s : List Char) :
    ∃ sign ∈ [[], ['+'], ['-']], s = sign ++ (exponentSign s).2 ∧
      (exponentSign s).1 = (exponentSign sign).1 := by
  unfold exponentSign
  split
  · exact ⟨['+'], by simp, rfl, rfl⟩
  · exact ⟨['-'], by simp, rfl, rfl⟩
  · exact ⟨[], by simp, rfl, rfl⟩

theorem of_scanExponent {short : Problem} {x : Option (Bool × List Char)}
    (h : scanExponent short s = .ok (x, r)) :
    ∃ exponent, s = exponent ++ r ∧ Exponent exponent ∧ x = exponentOf exponent := by
  match s with
  | [] =>
    cases h
    exact ⟨[], rfl, .none, rfl⟩
  | c :: t =>
    by_cases hc : (c = 'e' || c = 'E') = true
    · have hmark : c ∈ ['e', 'E'] := by simpa using hc
      rw [scanExponent_eq short hc] at h
      obtain ⟨sign, hsign, ht, hnegative⟩ := exists_exponentSign t
      obtain ⟨ds, hds, hne, hdigits, rfl⟩ := of_exponentDigits h
      refine ⟨c :: (sign ++ ds), ?_, .digits hmark hsign hne hdigits, ?_⟩
      · rw [List.cons_append, List.append_assoc, ← hds, ← ht]
      · obtain ⟨d, ds, rfl⟩ := List.exists_cons_of_ne_nil hne
        have hd := hdigits d List.mem_cons_self
        rw [hnegative]
        simp only [List.mem_cons, List.not_mem_nil, or_false] at hsign
        rcases hsign with rfl | rfl | rfl
        · exact congrArg some (exponentSign_digit hd ds).symm
        · rfl
        · rfl
    · simp only [scanExponent, hc] at h
      cases h
      exact ⟨[], rfl, .none, rfl⟩

theorem of_scanNumeral {short : Problem} {n : Numeral} (h : scanNumeral short s = .ok (n, r)) :
    ∃ whole fraction exponent, s = whole ++ (fraction ++ (exponent ++ r)) ∧ Whole whole ∧
      Fraction fraction ∧ Exponent exponent ∧ n = numeralOf whole fraction exponent := by
  unfold scanNumeral at h
  split at h
  · cases h
  · next whole s1 hwhole =>
    split at h
    · cases h
    · next s2 hfraction =>
      split at h
      · cases h
      · next s3 hexponent =>
        cases h
        obtain ⟨rfl, hw⟩ := of_scanWhole hwhole
        obtain ⟨fraction, rfl, hf, rfl⟩ := of_scanFraction hfraction
        obtain ⟨exponent, rfl, he, rfl⟩ := of_scanExponent hexponent
        exact ⟨whole, fraction, exponent, rfl, hw, hf, he, rfl⟩

theorem of_readNumber {negative : Bool} {x : Number} (h : readNumber negative s = .ok (x, r)) :
    ∃ whole fraction exponent, s = whole ++ (fraction ++ (exponent ++ r)) ∧ Whole whole ∧
      Fraction fraction ∧ Exponent exponent ∧
        (numeralOf whole fraction exponent).value negative = .ok x := by
  unfold readNumber at h
  split at h
  · cases h
  · next n rest hscan =>
    obtain ⟨whole, fraction, exponent, rfl, hwhole, hfraction, hexponent, rfl⟩ :=
      of_scanNumeral hscan
    split at h
    · next y hvalue =>
      cases h
      exact ⟨whole, fraction, exponent, rfl, hwhole, hfraction, hexponent, hvalue⟩
    · cases h

/-! ## Between two values -/

/-- From in front of a row of parts to where its next part begins. -/
inductive Entered : Bool → List Char → List Char → Prop where
  | first (before : Blanks) (r : List Char) : Entered true (before.1 ++ r) r
  | next (before between : Blanks) (r : List Char) :
      Entered false (before.1 ++ ',' :: (between.1 ++ r)) r

theorem of_nextElement {first : Bool} (h : nextElement first s = .ok (true, r)) :
    Entered first s r := by
  unfold nextElement at h
  split at h
  · cases h
  · next c t hskip =>
    obtain ⟨-, before, rfl⟩ := of_skipSpace hskip
    split at h
    · cases h
    · split at h
      · next hfirst =>
        cases h
        rw [hfirst]
        exact .first before _
      · next hfirst =>
        rw [eq_false_of_ne_true hfirst]
        split at h
        · next hcomma =>
          subst hcomma
          split at h
          · cases h
          · next d t' hnext =>
            obtain ⟨-, between, rfl⟩ := of_skipSpace hnext
            split at h
            · cases h
            · cases h
              exact .next before between _
        · cases h

theorem of_nextElement_end {first : Bool} (h : nextElement first s = .ok (false, r)) :
    ∃ (before : Blanks) (t : List Char), s = before.1 ++ ']' :: t ∧ r = ']' :: t := by
  unfold nextElement at h
  split at h
  · cases h
  · next c t hskip =>
    obtain ⟨-, before, rfl⟩ := of_skipSpace hskip
    split at h
    · next hclose =>
      cases h
      exact ⟨before, t, by rw [hclose], by rw [hclose]⟩
    · split at h
      · cases h
      · split at h
        · split at h
          · cases h
          · split at h <;> cases h
        · cases h

theorem of_readKey {key : Option String} (h : readKey s = .ok (key, r)) :
    ∃ (name : String) (w : Marked), key = some name ∧ w.text = some name ∧ s = w.write r := by
  unfold readKey at h
  split at h
  · cases h
  · next c t =>
    split at h
    · next hquote =>
      split at h
      · next text t' hread =>
        cases h
        obtain ⟨w, hw, hwrite⟩ := exists_marked_of_readString hread
        exact ⟨_, w, rfl, hw, by rw [hquote, hwrite]⟩
      · cases h
    · split at h <;> cases h

theorem of_nextMember {first : Bool} {name : String} (h : nextMember first s = .ok (some name, r)) :
    ∃ w : Marked, w.text = some name ∧ Entered first s (w.write r) := by
  unfold nextMember at h
  split at h
  · cases h
  · next c t hskip =>
    obtain ⟨-, before, rfl⟩ := of_skipSpace hskip
    split at h
    · cases h
    · split at h
      · next hfirst =>
        obtain ⟨_, w, ⟨⟩, hw, hwrite⟩ := of_readKey h
        rw [hfirst, hwrite]
        exact ⟨w, hw, .first before _⟩
      · next hfirst =>
        rw [eq_false_of_ne_true hfirst]
        split at h
        · next hcomma =>
          subst hcomma
          obtain ⟨_, w, ⟨⟩, hw, hwrite⟩ := of_readKey h
          obtain ⟨between, ht⟩ := exists_skipSpace t
          rw [hwrite] at ht
          rw [ht]
          exact ⟨w, hw, .next before between _⟩
        · cases h

theorem of_nextMember_end {first : Bool} (h : nextMember first s = .ok (none, r)) :
    ∃ (before : Blanks) (t : List Char), s = before.1 ++ '\x7d' :: t ∧ r = '\x7d' :: t := by
  unfold nextMember at h
  split at h
  · cases h
  · next c t hskip =>
    obtain ⟨-, before, rfl⟩ := of_skipSpace hskip
    split at h
    · next hclose =>
      cases h
      exact ⟨before, t, by rw [hclose], by rw [hclose]⟩
    · split at h
      · obtain ⟨_, _, ⟨⟩, -⟩ := of_readKey h
      · split at h
        · obtain ⟨_, _, ⟨⟩, -⟩ := of_readKey h
        · cases h

theorem of_readColon (h : readColon s = .ok r) : ∃ before : Blanks, s = before.1 ++ ':' :: r := by
  unfold readColon at h
  split at h
  · cases h
  · next c t hskip =>
    obtain ⟨-, before, rfl⟩ := of_skipSpace hskip
    split at h
    · next hcolon =>
      cases h
      exact ⟨before, by rw [hcolon]⟩
    · cases h

theorem of_closeList (h : closeList s = .ok r) : ∃ before : Blanks, s = before.1 ++ ']' :: r := by
  unfold closeList at h
  split at h
  · cases h
  · next c t hskip =>
    obtain ⟨-, before, rfl⟩ := of_skipSpace hskip
    split at h
    · next hclose =>
      cases h
      exact ⟨before, by rw [hclose]⟩
    · split at h
      · split at h
        · split at h <;> cases h
        · cases h
      · cases h

theorem of_skipKey (h : skipKey s = .ok r) :
    ∃ (before : Blanks) (w : Marked) (behind : Blanks),
      s = before.1 ++ w.write (behind.1 ++ ':' :: r) := by
  unfold skipKey at h
  split at h
  · cases h
  · next c t hskip =>
    obtain ⟨-, before, rfl⟩ := of_skipSpace hskip
    split at h
    · next hquote =>
      split at h
      · next t' hstring =>
        obtain ⟨behind, rfl⟩ := of_readColon h
        obtain ⟨body, rfl, hbody⟩ := of_skipString hstring
        obtain ⟨w, rfl⟩ := exists_marked hbody
        exact ⟨before, w, behind, by rw [hquote, Marked.write]⟩
      · cases h
    · cases h

/-! ## Rows -/

/-- What has been passed is a row of parts and what closes it. The blanks in front of a part that is
not the first belong to the part before it. -/
def Row (write : α → List Char → List Char) (close : Char) (first : Bool) (parts : List α)
    (s r : List Char) : Prop :=
  ∃ before behind : Blanks, (first = true → before = .none) ∧
    s = before.1 ++ sequence write first parts (behind.1 ++ close :: r)

variable {write : α → List Char → List Char} {close : Char} {first : Bool}

theorem Row.closed (behind : Blanks) : Row write close first [] (behind.1 ++ close :: r) r :=
  ⟨.none, behind, fun _ => rfl, rfl⟩

/-- An item as far as a reader is concerned: its text, and what it means. -/
def Item.entry (i : Item) : List Char × Meaning := (i.text, i.meaning)

theorem Row.item {before : Blanks} {m : Meaning} {u : List Char} {items : List Item}
    (hentered : Entered first s (before.1 ++ (t ++ u)))
    (hrow : Row Item.write close false items u r) :
    ∃ i : Item, i.entry = (t, m) ∧ Row Item.write close first (i :: items) s r := by
  obtain ⟨behind, last, -, rfl⟩ := hrow
  generalize hpart :
    before.1 ++ (t ++ (behind.1 ++ sequence Item.write false items (last.1 ++ close :: r))) = part
      at hentered
  cases hentered with
  | first lead =>
    refine ⟨⟨lead.join before, m, t, behind⟩, rfl, .none, last, fun _ => rfl, ?_⟩
    simp only [Blanks.none, List.nil_append, sequence, Item.write, Blanks.join, List.append_assoc,
      hpart]
  | next lead between =>
    refine ⟨⟨between.join before, m, t, behind⟩, rfl, lead, last, (absurd · Bool.false_ne_true), ?_⟩
    simp only [sequence, Item.write, Blanks.join, List.append_assoc, hpart]

theorem Row.member {w : Marked} {colon before : Blanks} {m : Meaning} {u : List Char}
    {members : List Member}
    (hentered : Entered first s (w.write (colon.1 ++ ':' :: (before.1 ++ (t ++ u)))))
    (hrow : Row Member.write close false members u r) :
    ∃ part : Member, part.name = w ∧ part.value.entry = (t, m) ∧
      Row Member.write close first (part :: members) s r := by
  obtain ⟨behind, last, -, rfl⟩ := hrow
  generalize hpart : w.write (colon.1 ++ ':' ::
    (before.1 ++ (t ++ (behind.1 ++ sequence Member.write false members (last.1 ++ close :: r))))) =
      part at hentered
  cases hentered with
  | first lead =>
    refine ⟨⟨lead, w, colon, before, m, t, behind⟩, rfl, rfl, .none, last, fun _ => rfl, ?_⟩
    simp only [Blanks.none, List.nil_append, sequence, Member.write, Member.tail, Item.write, hpart]
  | next lead between =>
    refine ⟨⟨between, w, colon, before, m, t, behind⟩, rfl, rfl, lead, last, (absurd · Bool.false_ne_true), ?_⟩
    simp only [sequence, Member.write, Member.tail, Item.write, hpart]

theorem spells_of_items {items : List Item} (h : ∀ i ∈ items, Spells i.meaning i.text)
    (hrow : Row Item.write ']' true items s r) :
    ∃ t, '[' :: s = t ++ r ∧ Spells (.list (items.map (·.meaning))) t := by
  obtain ⟨before, behind, hbefore, rfl⟩ := hrow
  refine ⟨_, ?_, .list behind h⟩
  rw [hbefore rfl, List.cons_append, sequence_append Item.write_append, List.append_assoc]
  rfl

theorem spells_of_members {members : List Member}
    (h : ∀ m ∈ members, Spells m.value.meaning m.value.text)
    (hrow : Row Member.write '\x7d' true members s r) :
    ∃ t, '\x7b' :: s = t ++ r ∧ Spells (.object (members.map (·.meaning))) t := by
  obtain ⟨before, behind, hbefore, rfl⟩ := hrow
  refine ⟨_, ?_, .object behind h⟩
  rw [hbefore rfl, List.cons_append, sequence_append Member.write_append, List.append_assoc]
  rfl

end PromptRunner.Json
