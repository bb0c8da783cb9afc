import Mathlib.Data.List.TakeWhile
import Mathlib.Tactic.SplitIfs
import PromptRunner.Json.Record

/-!
# More text behind a document

A reader looks at its text from the left and stops where its value ends. What stands behind the
value changes nothing: a reader that answered goes on to answer the same when the text is longer,
with the rest longer by as much. A number is the exception, for it ends where the text ends and
goes on when more digits follow, and the readers that may end on a number keep their answer only
where something is left behind it.

A record is closed by its bracket, so it belongs to the first kind whatever its fields are. The
consequence is what truncation rests on: no proper beginning of a document that is read to its end
is read as a document.
-/

namespace PromptRunner.Json

/-- A reader whose answer stands whatever follows. -/
def Settles (read : List Char → Reading α) : Prop :=
  ∀ ⦃s v r⦄, read s = .ok (v, r) → ∀ u, read (s ++ u) = .ok (v, r ++ u)

/-- A reader whose answer stands if it did not end with the text. -/
def SettlesInside (read : List Char → Reading α) : Prop :=
  ∀ ⦃s v r⦄, read s = .ok (v, r) → r ≠ [] → ∀ u, read (s ++ u) = .ok (v, r ++ u)

/-! ## Blanks and punctuation -/

theorem skipSpace_append {s r : List Char} {c : Char} (h : skipSpace s = c :: r) (u : List Char) :
    skipSpace (s ++ u) = c :: (r ++ u) := by
  induction s with
  | nil => cases h
  | cons d s ih =>
    by_cases hd : isSpace d = true
    · rw [skipSpace_of_space hd] at h
      rw [List.cons_append, skipSpace_of_space hd, ih h]
    · have hd : isSpace d = false := eq_false_of_ne_true hd
      rw [skipSpace_of_not_space hd] at h
      cases h
      exact skipSpace_of_not_space hd _

theorem nextElement_settles (first : Bool) : Settles (nextElement first) := by
  intro s v r h u
  unfold nextElement at h ⊢
  split at h
  · cases h
  · next c t hskip =>
    rw [skipSpace_append hskip u]
    simp only
    split at h
    · next hclose =>
      cases h
      rw [if_pos hclose]
      rfl
    · next hclose =>
      rw [if_neg hclose]
      split at h
      · next hfirst =>
        cases h
        rw [if_pos hfirst]
        rfl
      · next hfirst =>
        rw [if_neg hfirst]
        split at h
        · next hcomma =>
          rw [if_pos hcomma]
          split at h
          · cases h
          · next d t' hnext =>
            rw [skipSpace_append hnext u]
            simp only
            split at h
            · cases h
            · next hd =>
              cases h
              rw [if_neg hd]
              rfl
        · cases h

theorem closeList_append {s r : List Char} (h : closeList s = .ok r) (u : List Char) :
    closeList (s ++ u) = .ok (r ++ u) := by
  unfold closeList at h ⊢
  split at h
  · cases h
  · next c t hskip =>
    rw [skipSpace_append hskip u]
    simp only
    split at h
    · next hclose =>
      cases h
      rw [if_pos hclose]
    · split at h
      · split at h
        · split at h <;> cases h
        · cases h
      · cases h

theorem closeObject_append {s r : List Char} (h : closeObject s = .ok r) (u : List Char) :
    closeObject (s ++ u) = .ok (r ++ u) := by
  unfold closeObject at h ⊢
  split at h
  · cases h
  · next c t hskip =>
    rw [skipSpace_append hskip u]
    simp only
    split at h
    · next hclose =>
      cases h
      rw [if_pos hclose]
    · split at h <;> cases h

theorem readColon_append {s r : List Char} (h : readColon s = .ok r) (u : List Char) :
    readColon (s ++ u) = .ok (r ++ u) := by
  unfold readColon at h ⊢
  split at h
  · cases h
  · next c t hskip =>
    rw [skipSpace_append hskip u]
    simp only
    split at h
    · next hcolon =>
      cases h
      rw [if_pos hcolon]
    · cases h

theorem readWord_append {w s r : List Char} (h : readWord w s = .ok r) (u : List Char) :
    readWord w (s ++ u) = .ok (r ++ u) := by
  induction w generalizing s with
  | nil =>
    cases h
    rfl
  | cons w ws ih =>
    cases s with
    | nil => cases h
    | cons c s =>
      rw [readWord] at h
      rw [List.cons_append, readWord]
      split at h
      · next hc =>
        rw [if_pos hc]
        exact ih h
      · cases h

/-! ## Strings -/

theorem prepend_append {c : Char} {t u v r : List Char}
    (h : (readString t).prepend c = .ok (v, r))
    (ih : ∀ ⦃v⦄, readString t = .ok (v, r) → readString (t ++ u) = .ok (v, r ++ u)) :
    (readString (t ++ u)).prepend c = .ok (v, r ++ u) := by
  match hread : readString t with
  | .ok (v', r') =>
    rw [hread] at h
    cases h
    rw [ih hread]
    rfl
  | .error e =>
    rw [hread] at h
    cases h

theorem readString_settles : Settles readString := by
  intro s v r h u
  fun_induction readString s generalizing v
  case case2 =>
    cases h
    exact readString_quote _
  -- two halves of a pair
  case case9 hn hlow hhigh _ _ _ _ _ _ hm hsecond _ ih =>
    have hread := prepend_append h ih
    rw [readString.eq_def]
    simpa [hn, hlow, hhigh, hm, hsecond] using hread
  case case14 hn hlow hhigh _ ih =>
    exact (readString_numbered hn (eq_false_of_ne_true hlow) (eq_false_of_ne_true hhigh) _).trans
      (prepend_append h ih)
  case case16 hc _ ih => exact (readString_short hc _).trans (prepend_append h ih)
  case case19 hquote hslash hcontrol ih =>
    exact (readString_plain hquote hslash (eq_false_of_ne_true hcontrol) _).trans
      (prepend_append h ih)
  all_goals cases h

theorem skipString_append {s r : List Char} (h : skipString s = .ok r) (u : List Char) :
    skipString (s ++ u) = .ok (r ++ u) := by
  fun_induction skipString s
  case case2 =>
    cases h
    rw [List.cons_append, skipString.eq_def]
    rfl
  case case5 hn _ ih =>
    rw [skipString.eq_def]
    simpa [hn] using ih h
  case case7 hu _ hc _ ih =>
    rw [skipString.eq_def]
    simpa [hu, hc] using ih h
  case case10 hquote hslash hcontrol ih =>
    rw [skipString.eq_def]
    simpa [hquote, hslash, hcontrol] using ih h
  all_goals cases h

theorem readKey_settles : Settles readKey := by
  intro s v r h u
  unfold readKey at h
  split at h
  · cases h
  · next c t =>
    split at h
    · next hquote =>
      split at h
      · next key t' hread =>
        cases h
        rw [List.cons_append, readKey, if_pos hquote, readString_settles hread u]
      · cases h
    · split at h <;> cases h

theorem skipSpace_append_of_readKey {s r : List Char} {v : Option String}
    (h : readKey (skipSpace s) = .ok (v, r)) (u : List Char) :
    skipSpace (s ++ u) = skipSpace s ++ u := by
  match hskip : skipSpace s with
  | [] =>
    rw [hskip] at h
    cases h
  | c :: t => exact skipSpace_append hskip u

theorem nextMember_settles (first : Bool) : Settles (nextMember first) := by
  intro s v r h u
  unfold nextMember at h ⊢
  split at h
  · cases h
  · next c t hskip =>
    rw [skipSpace_append hskip u]
    simp only
    split at h
    · next hclose =>
      cases h
      rw [if_pos hclose]
      rfl
    · next hclose =>
      rw [if_neg hclose]
      split at h
      · next hfirst =>
        rw [if_pos hfirst]
        exact readKey_settles h u
      · next hfirst =>
        rw [if_neg hfirst]
        split at h
        · next hcomma =>
          rw [if_pos hcomma, skipSpace_append_of_readKey h u]
          exact readKey_settles h u
        · cases h

/-! ## Numbers -/

theorem spanDigits_settles {s : List Char} (h : (spanDigits s).2 ≠ []) (u : List Char) :
    spanDigits (s ++ u) = ((spanDigits s).1, (spanDigits s).2 ++ u) := by
  induction s with
  | nil => exact absurd rfl h
  | cons c s ih =>
    unfold spanDigits at h ih ⊢
    by_cases hc : isDigit c = true
    · rw [List.dropWhile_cons_of_pos hc] at h ⊢
      rw [List.takeWhile_cons_of_pos hc, List.cons_append, List.takeWhile_cons_of_pos hc,
        List.dropWhile_cons_of_pos hc]
      have hspan := Prod.mk.inj (ih h)
      rw [hspan.1, hspan.2]
    · rw [List.dropWhile_cons_of_neg hc, List.takeWhile_cons_of_neg hc, List.cons_append,
        List.takeWhile_cons_of_neg hc, List.dropWhile_cons_of_neg hc]

theorem scanWhole_settles (short : Problem) : SettlesInside (scanWhole short) := by
  intro s v r h hr u
  unfold scanWhole at h
  split at h
  · cases h
  · next c t =>
    simp only [List.cons_append, scanWhole]
    split at h
    · next hzero =>
      rw [if_pos hzero]
      split at h
      · next d t' =>
        split at h
        · cases h
        · next hd =>
          cases h
          simp only [List.cons_append, if_neg hd]
      · cases h
        exact absurd rfl hr
    · next hzero =>
      rw [if_neg hzero]
      split at h
      · next hc =>
        have hspan := Except.ok.inj h
        have hrest : (spanDigits (c :: t)).2 ≠ [] := by
          rw [hspan]
          exact hr
        rw [if_pos hc, ← List.cons_append, spanDigits_settles hrest u, hspan]
      · cases h

/-- Digits with something behind them, in the form in which the scan looks at them. -/
theorem spanDigits_eq {s ds r : List Char} (h : spanDigits s = (ds, r)) (hr : r ≠ [])
    (u : List Char) : spanDigits (s ++ u) = (ds, r ++ u) := by
  have hrest : (spanDigits s).2 ≠ [] := by
    rw [h]
    exact hr
  rw [spanDigits_settles hrest u, h]

theorem scanFraction_settles (short : Problem) : SettlesInside (scanFraction short) := by
  intro s v r h hr u
  unfold scanFraction at h
  split at h
  · next t =>
    match hspan : spanDigits t with
    | ([], []) =>
      rw [hspan] at h
      cases h
    | ([], c :: t') =>
      rw [hspan] at h
      cases h
    | (d :: ds, t') =>
      rw [hspan] at h
      cases h
      rw [List.cons_append, scanFraction, spanDigits_eq hspan hr u]
  · next hpoint =>
    cases h
    match s, hr with
    | c :: t, _ =>
      have hc : c ≠ '.' := fun heq => hpoint t (by rw [heq])
      rw [List.cons_append, scanFraction]
      intro t' heq
      exact hc (List.cons.inj heq).1

/-- The digits of an exponent, behind its sign. -/
def exponentDigits (short : Problem) (negative : Bool) (s : List Char) :
    Reading (Option (Bool × List Char)) :=
  match spanDigits s with
  | ([], []) => .error (.here short [])
  | ([], r) => .error (.next .badNumber r)
  | (ds, r) => .ok (some (negative, ds), r)

theorem exponentDigits_settles (short : Problem) (negative : Bool) :
    SettlesInside (exponentDigits short negative) := by
  intro s v r h hr u
  unfold exponentDigits at h
  match hspan : spanDigits s with
  | ([], []) =>
    rw [hspan] at h
    cases h
  | ([], c :: t') =>
    rw [hspan] at h
    cases h
  | (d :: ds, t') =>
    rw [hspan] at h
    cases h
    rw [exponentDigits, spanDigits_eq hspan hr u]

/-- The sign that an exponent begins with, and what follows it. -/
def exponentSign : List Char → Bool × List Char
  | '+' :: r => (false, r)
  | '-' :: r => (true, r)
  | r => (false, r)

theorem scanExponent_eq (short : Problem) {c : Char} (hc : (c = 'e' || c = 'E') = true)
    (t : List Char) :
    scanExponent short (c :: t) =
      exponentDigits short (exponentSign t).1 (exponentSign t).2 := by
  simp only [scanExponent, hc, if_true]
  rfl

theorem exponentSign_append (c : Char) (t u : List Char) :
    exponentSign (c :: t ++ u) =
      ((exponentSign (c :: t)).1, (exponentSign (c :: t)).2 ++ u) := by
  by_cases hplus : c = '+'
  · rw [hplus]
    rfl
  · by_cases hminus : c = '-'
    · rw [hminus]
      rfl
    · rw [List.cons_append, exponentSign, exponentSign]
      · rfl
      all_goals
        intro r heq
        exact absurd (List.cons.inj heq).1 (by assumption)

theorem scanExponent_settles (short : Problem) : SettlesInside (scanExponent short) := by
  intro s v r h hr u
  match s with
  | [] =>
    cases h
    exact absurd rfl hr
  | c :: t =>
    by_cases hc : (c = 'e' || c = 'E') = true
    · rw [scanExponent_eq short hc] at h
      rw [List.cons_append, scanExponent_eq short hc]
      match t with
      | [] => cases h
      | d :: t' =>
        rw [exponentSign_append]
        exact exponentDigits_settles short _ h hr u
    · simp only [scanExponent, hc] at h
      cases h
      simp only [List.cons_append, scanExponent, hc]
      rfl

/-- None of the parts of a numeral leaves text behind where there was none. -/
theorem scanNumeral_settles (short : Problem) : SettlesInside (scanNumeral short) := by
  intro s n r h hr u
  unfold scanNumeral at h ⊢
  split at h
  · cases h
  · next whole s1 hwhole =>
    split at h
    · cases h
    · next fraction s2 hfraction =>
      split at h
      · cases h
      · next exponent s3 hexponent =>
        cases h
        have hs2 : s2 ≠ [] := by
          rintro rfl
          cases hexponent
          exact hr rfl
        have hs1 : s1 ≠ [] := by
          rintro rfl
          cases hfraction
          exact hs2 rfl
        rw [scanWhole_settles short hwhole hs1 u]
        simp only
        rw [scanFraction_settles short hfraction hs2 u]
        simp only
        rw [scanExponent_settles short hexponent hr u]

theorem readNumber_settles (negative : Bool) : SettlesInside (readNumber negative) := by
  intro s x r h hr u
  unfold readNumber at h ⊢
  split at h
  · cases h
  · next n rest hscan =>
    split at h
    · next y hvalue =>
      cases h
      rw [scanNumeral_settles _ hscan hr u]
      simp only [hvalue]
    · cases h

theorem skipNumber_append {s r : List Char} (h : skipNumber s = .ok r) (hr : r ≠ [])
    (u : List Char) : skipNumber (s ++ u) = .ok (r ++ u) := by
  unfold skipNumber at h ⊢
  match hscan : scanNumeral .badNumber s with
  | .ok (n, rest) =>
    rw [hscan] at h
    cases h
    rw [scanNumeral_settles _ hscan hr u]
    rfl
  | .error e =>
    rw [hscan] at h
    cases h

/-! ## Values that nobody asked for -/

theorem skipScalar_append {s r : List Char} (h : skipScalar s = .ok r) (hr : r ≠ [])
    (u : List Char) : skipScalar (s ++ u) = .ok (r ++ u) := by
  match s with
  | [] => cases h
  | c :: t =>
    simp only [List.cons_append, skipScalar] at h ⊢
    split_ifs at h ⊢
    · exact readWord_append h u
    · exact readWord_append h u
    · exact readWord_append h u
    · exact skipNumber_append h hr u
    · exact skipNumber_append h hr u
    · exact skipString_append h u

theorem skipKey_append {s r : List Char} (h : skipKey s = .ok r) (u : List Char) :
    skipKey (s ++ u) = .ok (r ++ u) := by
  unfold skipKey at h ⊢
  split at h
  · cases h
  · next c t hskip =>
    rw [skipSpace_append hskip u]
    simp only
    split at h
    · next hc =>
      rw [if_pos hc]
      split at h
      · next t' hread =>
        rw [skipString_append hread u]
        exact readColon_append h u
      · cases h
    · cases h

/-- Nothing is skipped at the end of the text, unless all brackets are closed. -/
theorem skipSteps_nil {fuel : Nat} {stage : Stage} {stack : List Bracket} {r : List Char}
    (h : skipSteps fuel stage stack [] = .ok r) : r = [] := by
  match fuel with
  | 0 => cases h
  | fuel + 1 =>
    match stage, stack with
    | .value, _ => cases h
    | .opened, [] => cases h; rfl
    | .valueDone, [] => cases h; rfl
    | .opened, b :: stack => cases h
    | .valueDone, b :: stack => cases h

/-- What the step behind an opening bracket or a separator does with the text. -/
def memberText (b : Bracket) (s : List Char) : Except Fault (List Char) :=
  match b with
  | .list => .ok s
  | .object => skipKey s

theorem memberText_append {b : Bracket} {s r : List Char} (h : memberText b s = .ok r)
    (u : List Char) : memberText b (s ++ u) = .ok (r ++ u) := by
  cases b with
  | list =>
    cases h
    rfl
  | object => exact skipKey_append h u

/-- A step inside a bracket closes it or goes on to a value, behind a separator unless it has just
been opened. -/
theorem skipSteps_inside {stage : Stage} (hstage : stage ≠ .value) (fuel : Nat) (b : Bracket)
    (stack : List Bracket) (s : List Char) :
    skipSteps (fuel + 1) stage (b :: stack) s =
      match skipSpace s with
      | [] => .error (.here b.openProblem [])
      | c :: r =>
        if c = b.closing then skipSteps fuel .valueDone stack r
        else if stage = .opened then
          match memberText b (c :: r) with
          | .ok s => skipSteps fuel .value (b :: stack) s
          | .error e => .error e
        else if c = ',' then
          match memberText b r with
          | .ok s => skipSteps fuel .value (b :: stack) s
          | .error e => .error e
        else .error (.next b.separatorProblem (c :: r)) := by
  cases stage with
  | value => exact absurd rfl hstage
  | opened => rfl
  | valueDone => rfl

/-- Skipping answers the same with more text behind it, and with more steps allowed. -/
theorem skipSteps_append {fuel fuel' : Nat} (hf : fuel ≤ fuel') {stage : Stage}
    {stack : List Bracket} {s r : List Char} (h : skipSteps fuel stage stack s = .ok r)
    (hr : r ≠ []) (u : List Char) : skipSteps fuel' stage stack (s ++ u) = .ok (r ++ u) := by
  induction fuel generalizing fuel' stage stack s with
  | zero => cases h
  | succ fuel ih =>
    obtain ⟨more, rfl⟩ : ∃ more, fuel' = more + 1 := ⟨fuel' - 1, by omega⟩
    have hf : fuel ≤ more := by omega
    by_cases hstage : stage = .value
    · subst hstage
      simp only [skipSteps] at h ⊢
      split at h
      · cases h
      · next c t hskip =>
        rw [skipSpace_append hskip u]
        simp only
        split_ifs at h ⊢
        · exact ih hf h
        · exact ih hf h
        · split at h
          · next t' hscalar =>
            have ht : t' ≠ [] := by
              rintro rfl
              exact hr (skipSteps_nil h)
            rw [← List.cons_append, skipScalar_append hscalar ht u]
            exact ih hf h
          · cases h
    · cases stack with
      | nil =>
        rw [skipSteps] at h ⊢
        · cases h
          rfl
        · exact hstage
        · exact hstage
      | cons b stack =>
        rw [skipSteps_inside hstage] at h ⊢
        split at h
        · cases h
        · next c t hskip =>
          rw [skipSpace_append hskip u]
          simp only
          split_ifs at h ⊢
          · exact ih hf h
          · split at h
            · next t' hmember =>
              rw [← List.cons_append, memberText_append hmember u]
              exact ih hf h
            · cases h
          · split at h
            · next t' hmember =>
              rw [memberText_append hmember u]
              exact ih hf h
            · cases h

theorem skipValue_append {s r : List Char} (h : skipValue s = .ok r) (hr : r ≠ [])
    (u : List Char) : skipValue (s ++ u) = .ok (r ++ u) := by
  have hf : 2 * s.length + 2 ≤ 2 * (s ++ u).length + 2 := by
    rw [List.length_append]
    omega
  exact skipSteps_append hf h hr u

/-! ## Fields -/

theorem readText_settles (wanted : String) (depth : Nat) : Settles (readText wanted depth) := by
  intro s v r h u
  unfold readText at h ⊢
  split at h
  · cases h
  · next c t hskip =>
    rw [skipSpace_append hskip u]
    simp only
    split_ifs at h ⊢
    match hread : readString t with
    | .ok (text, t') =>
      rw [hread] at h
      cases h
      rw [readString_settles hread u]
      rfl
    | .error e =>
      rw [hread] at h
      cases h

theorem readAnyNumber_settles (wanted : String) : SettlesInside (readAnyNumber wanted) := by
  intro s v r h hr u
  unfold readAnyNumber at h ⊢
  split at h
  · cases h
  · next c t hskip =>
    rw [skipSpace_append hskip u]
    simp only
    split_ifs at h ⊢
    · exact readNumber_settles true h hr u
    · exact readNumber_settles false h hr u

theorem readReal_settles (wanted : String) (depth : Nat) :
    SettlesInside (readReal wanted depth) := by
  intro s v r h hr u
  unfold readReal at h ⊢
  match hread : readAnyNumber wanted s with
  | .ok (n, t) =>
    rw [hread] at h
    cases h
    rw [readAnyNumber_settles wanted hread hr u]
    rfl
  | .error e =>
    rw [hread] at h
    cases h

theorem Settles.inside {read : List Char → Reading α} (h : Settles read) : SettlesInside read :=
  fun _ _ _ hread _ u => h hread u

theorem RecordField.of_read {name : String} {required : Bool} {read : Reader α}
    {set : α → σ → σ} {depth : Nat} {s r : List Char} {x : α} (h : read depth s = .ok (x, r)) :
    (RecordField.of name required read set).read depth s = .ok (set x, r) := by
  simp only [RecordField.of, h]
  rfl

theorem RecordField.of_settles {name : String} {required : Bool} {read : Reader α}
    {set : α → σ → σ} {depth : Nat} (h : SettlesInside (read depth)) :
    SettlesInside ((RecordField.of name required read set).read depth) := by
  intro s v r hread hr u
  simp only [RecordField.of] at hread ⊢
  match hvalue : read depth s with
  | .ok (x, t) =>
    rw [hvalue] at hread
    cases hread
    rw [h hvalue hr u]
    rfl
  | .error e =>
    rw [hvalue] at hread
    cases hread

/-! ## Records -/

variable {fields : List (RecordField σ)} {depth : Nat}

theorem readNamed_nil {fuel : Nat} {first : Bool} {seen : List String} {v : σ}
    {w : σ × List Char} : readNamed fields depth fuel first seen v [] ≠ .ok w := by
  cases fuel <;> exact nofun

/-- The members of a record are read the same with more text behind the bracket. -/
theorem readNamed_append (hfields : ∀ f ∈ fields, SettlesInside (f.read depth))
    {fuel fuel' : Nat} (hf : fuel ≤ fuel') {first : Bool} {seen : List String} {v w : σ}
    {s r : List Char} (h : readNamed fields depth fuel first seen v s = .ok (w, r))
    (u : List Char) :
    readNamed fields depth fuel' first seen v (s ++ u) = .ok (w, r ++ u) := by
  induction fuel generalizing fuel' first seen v s with
  | zero => cases h
  | succ fuel ih =>
    obtain ⟨more, rfl⟩ : ∃ more, fuel' = more + 1 := ⟨fuel' - 1, by omega⟩
    have hf : fuel ≤ more := by omega
    simp only [readNamed] at h ⊢
    split at h
    · cases h
    · next t hmember =>
      rw [nextMember_settles first hmember u]
      simp only
      split at h
      · cases h
      · cases h
        rfl
    · next key t hmember =>
      rw [nextMember_settles first hmember u]
      simp only
      split at h
      · next hfind =>
        split at h
        · cases h
        · next t1 hcolon =>
          rw [readColon_append hcolon u]
          simp only
          split at h
          · cases h
          · next t2 hskip =>
            have ht : t2 ≠ [] := by
              rintro rfl
              exact readNamed_nil h
            rw [skipValue_append hskip ht u]
            exact ih hf h
      · next field hfind =>
        split at h
        · cases h
        · next hseen =>
          rw [if_neg hseen]
          split at h
          · cases h
          · next t1 hcolon =>
            rw [readColon_append hcolon u]
            simp only
            split at h
            · cases h
            · next set t2 hread =>
              have ht : t2 ≠ [] := by
                rintro rfl
                exact readNamed_nil h
              rw [hfields field (List.mem_of_find?_eq_some hfind) hread ht u]
              exact ih hf h

/-- The fields of a record in order, likewise, where something is left behind them. -/
theorem readInOrder_append (wanted : String)
    (hfields : ∀ f ∈ fields, SettlesInside (f.read depth)) {index : Nat} {v w : σ}
    {s r : List Char} (h : readInOrder wanted depth fields index v s = .ok (w, r)) (hr : r ≠ [])
    (u : List Char) :
    readInOrder wanted depth fields index v (s ++ u) = .ok (w, r ++ u) := by
  induction fields generalizing index v s with
  | nil =>
    cases h
    rfl
  | cons field fields ih =>
    have hrest : ∀ f ∈ fields, SettlesInside (f.read depth) := fun f hf =>
      hfields f (List.mem_cons_of_mem _ hf)
    have hnil : ∀ {index v}, readInOrder wanted depth fields index v [] = .ok (w, r) → False := by
      intro index v hread
      cases fields with
      | nil =>
        cases hread
        exact hr rfl
      | cons f fs => cases hread
    simp only [readInOrder] at h ⊢
    split at h
    · cases h
    · next t helement =>
      rw [nextElement_settles _ helement u]
      simp only
      split_ifs at h ⊢
      exact ih hrest h
    · next t helement =>
      rw [nextElement_settles _ helement u]
      simp only
      split at h
      · cases h
      · next set t' hread =>
        have ht : t' ≠ [] := by
          rintro rfl
          exact hnil h
        rw [hfields field List.mem_cons_self hread ht u]
        exact ih hrest h

/-- A record between its brackets. -/
theorem readRecord_object {title : String} {start w : σ} {body r : List Char}
    (h : readNamed fields depth (body.length + 1) true [] start body = .ok (w, '\x7d' :: r)) :
    readRecord title fields start (depth + 1) ('\x7b' :: body) = .ok (w, r) := by
  have hne : '\x7b' ≠ '[' := by decide
  rw [readRecord, skipSpace_of_not_space rfl]
  simp only [if_neg hne, if_true, h]
  rfl

/-- A record is closed by its bracket, and what stands behind it changes nothing. -/
theorem readRecord_settles {title : String} {start : σ}
    (hfields : ∀ depth, ∀ f ∈ fields, SettlesInside (f.read depth)) (depth : Nat) :
    Settles (readRecord title fields start depth) := by
  intro s w r h u
  unfold readRecord at h ⊢
  split at h
  · cases h
  · next c t hskip =>
    rw [skipSpace_append hskip u]
    simp only
    split_ifs at h ⊢
    · match depth with
      | 0 => cases h
      | depth + 1 =>
        simp only at h ⊢
        match hread : readInOrder (lengthWanted title fields) depth fields 0 start t with
        | .ok (v, t') =>
          rw [hread] at h
          simp only [closing] at h
          match hclose : closeList t' with
          | .ok t2 =>
            rw [hclose] at h
            cases h
            have ht : t' ≠ [] := by
              rintro rfl
              cases hclose
            rw [readInOrder_append _ (hfields depth) hread ht u]
            simp only [closing, closeList_append hclose u]
            rfl
          | .error e =>
            rw [hclose] at h
            cases h
        | .error (.placed e) =>
          rw [hread] at h
          cases h
        | .error (.loose p t') =>
          rw [hread] at h
          cases h
    · match depth with
      | 0 => cases h
      | depth + 1 =>
        simp only at h ⊢
        match hread : readNamed fields depth (t.length + 1) true [] start t with
        | .ok (v, t') =>
          rw [hread] at h
          simp only [closing] at h
          match hclose : closeObject t' with
          | .ok t2 =>
            rw [hclose] at h
            cases h
            have hfuel : t.length + 1 ≤ (t ++ u).length + 1 := by
              rw [List.length_append]
              omega
            rw [readNamed_append (hfields depth) hfuel hread u]
            simp only [closing, closeObject_append hclose u]
            rfl
          | .error e =>
            rw [hclose] at h
            cases h
        | .error (.placed e) =>
          rw [hread] at h
          cases h
        | .error (.loose p t') =>
          rw [hread] at h
          cases h

/-! ## Whole texts -/

/-- A text that is read to its end has no proper beginning that is read as a document. -/
theorem readWhole_beginning {read : Nat → List Char → Reading α} (hread : Settles (read depthLimit))
    {text u : List Char} {v : α} (hwhole : read depthLimit (text ++ u) = .ok (v, [])) (hu : u ≠ [])
    {w : α} : readWhole read text ≠ .ok w := by
  intro h
  unfold readWhole at h
  split at h
  · cases h
  · next x rest hx =>
    have hmore := hread hx u
    rw [hwhole] at hmore
    have hnil := (Prod.mk.inj (Except.ok.inj hmore)).2
    exact hu (List.append_eq_nil_iff.1 hnil.symm).2

/-- A text that is read up to something that is no blank is no document. -/
theorem readWhole_overlong {read : Nat → List Char → Reading α} {text u : List Char} {v : α}
    (hread : read depthLimit text = .ok (v, u)) {c : Char} (hc : c ∈ u) (hspace : isSpace c = false)
    {w : α} : readWhole read text ≠ .ok w := by
  intro h
  simp only [readWhole, hread] at h
  split at h
  · next hskip =>
    have hall : ∀ d ∈ u, isSpace d = true := List.dropWhile_eq_nil_iff.1 hskip
    exact absurd (hall c hc) (by simp [hspace])
  · cases h

end PromptRunner.Json
