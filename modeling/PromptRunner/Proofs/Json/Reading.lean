import PromptRunner.Proofs.Json.Skipping

/-!
# Records are read from every way to write them

The readers of known shapes accept every document of the grammar that has the shape: any blanks, any
escapes, any order of the fields, and fields that nobody asked for among them. `Reads read s x` says
that a reader takes `s` for `x`, with blanks in front of it and something else behind it.

What a record is read as is said without a reader. A field that is known has a name, a type and a
way to change the record (`Known`), and the members of an object change the record one after the
other, those of unknown names not at all (`assign`). `readRecord_spelled` says that the reader
does that, and `get_assigned` says what comes of it: a part of the record that one field alone
decides is what the only member of that name says, or as it was at the start if there is none.
-/

namespace PromptRunner.Json

variable {text s : List Char} {wanted : String} {depth : Nat}

/-! ## Strings and numbers -/

theorem readString_spelled (h : SpellsText text s) (r : List Char) :
    readString (s ++ '"' :: r) = .ok (text, r) := by
  induction h with
  | nil => exact readString_quote r
  | plain hmark hslash hcontrol _ ih =>
    rw [List.cons_append, readString_plain hmark hslash hcontrol, ih]
    rfl
  | short he _ ih =>
    rw [List.cons_append, List.cons_append, readString_short he, ih]
    rfl
  | numbered hn hlow hhigh _ ih =>
    simp only [List.cons_append]
    rw [readString_numbered hn hlow hhigh, ih]
    rfl
  | @pair a b c d a' b' c' d' n n' text s hn hhigh hn' hlow _ ih =>
    have hapart : isLowHalf n = false := by
      simp only [isHighHalf, isLowHalf, Bool.and_eq_true, decide_eq_true_eq,
        Bool.and_eq_false_iff, decide_eq_false_iff_not] at hhigh ⊢
      omega
    simp only [List.cons_append]
    rw [readString.eq_def]
    simp only [hn, hapart, hhigh, hn', hlow, Char.reduceEq, if_false, if_true, Bool.false_eq_true,
      ih]
    rfl

theorem SpellsText.unique {text' : List Char} (h : SpellsText text s) (h' : SpellsText text' s) :
    text = text' := by
  have hread := (readString_spelled h []).symm.trans (readString_spelled h' [])
  exact (Prod.mk.inj (Except.ok.inj hread)).1

/-- A character that needs no escape. -/
def isPlain (c : Char) : Bool := c ≠ '"' && c ≠ '\\' && !isControl c

theorem spellsText_self (h : s.all isPlain = true) : SpellsText s s := by
  induction s with
  | nil => exact .nil
  | cons c s ih =>
    rw [List.all_cons, Bool.and_eq_true] at h
    obtain ⟨hc, hs⟩ := h
    simp only [isPlain, Bool.and_eq_true, decide_eq_true_eq, Bool.not_eq_true'] at hc
    exact .plain hc.1.1 hc.1.2 hc.2 (ih hs)

/-- A text without anything that has to be escaped, as it is. -/
def Marked.plain (t : String) (h : t.toList.all isPlain = true) : Marked where
  text := some t
  body := t.toList
  written := (spellsText_self h).body
  meant t' := by
    constructor
    · rintro ⟨⟩
      exact spellsText_self h
    · exact fun h' => congrArg some (String.toList_inj.1 ((spellsText_self h).unique h'))

/-- A member without blanks. -/
def Member.tight (name : Marked) (m : Meaning) (text : String) : Member :=
  ⟨.none, name, .none, ⟨.none, m, text.toList, .none⟩⟩

/-- A reader takes a text for a value, whatever blanks stand in front of it and whatever follows,
unless that goes on with a numeral. -/
def Reads (read : List Char → Reading α) (s : List Char) (x : α) : Prop :=
  ∀ (blanks : Blanks) (rest : List Char), Leaves rest →
    read (blanks.1 ++ (s ++ rest)) = .ok (x, rest)

theorem reads_text {t : String} (h : Spells (.string (some t)) s) :
    Reads (readText wanted depth) s t := by
  obtain ⟨w, hw, rfl⟩ := h.of_string
  intro blanks rest _
  have hread := readString_spelled ((w.meant t).1 hw) rest
  rw [Marked.write_append, List.nil_append, Marked.write, readText, skipSpace_blanks,
    skipSpace_of_not_space (by decide)]
  simp only [if_true, hread]
  show Except.ok (String.ofList t.toList, rest) = _
  rw [String.ofList_toList]

theorem reads_null {read : Reader α} (h : Spells .null s) :
    Reads (readOptional read depth) s none := by
  cases h
  intro blanks rest _
  rw [readOptional, skipSpace_blanks, List.cons_append, skipSpace_of_not_space (by decide)]
  rfl

theorem reads_some_text {t : String} (h : Spells (.string (some t)) s) :
    Reads (readOptional (readText wanted) depth) s (some t) := by
  obtain ⟨w, hw, rfl⟩ := h.of_string
  intro blanks rest hrest
  have hread : readText wanted depth (w.write [] ++ rest) = .ok (t, rest) :=
    reads_text h .none rest hrest
  rw [readOptional, skipSpace_blanks]
  show (readText wanted depth (w.write [] ++ rest)).map _ = _
  rw [hread]
  rfl

theorem value_of_digits {ds : List Char} (h : Nat.ofDigitChars 10 ds 0 ≤ natural64Max) :
    Numeral.value false ⟨ds, [], none⟩ = .ok (.natural (Nat.ofDigitChars 10 ds 0)) := by
  have hsignificand : Numeral.significand ⟨ds, [], none⟩ = (Nat.ofDigitChars 10 ds 0, 0) := by
    simp only [Numeral.significand, accumulate_eq_of_le h, accumulate]
    rfl
  simp only [Numeral.value, hsignificand, if_true, Bool.not_false]

theorem reads_natural {n bound : Nat} (h : Spells (.natural n) s) (hbound : n < bound)
    (hfits : n ≤ natural64Max) : Reads (readNatural bound wanted depth) s n := by
  obtain ⟨hs, rfl⟩ := h.of_natural
  intro blanks rest hrest
  have hscan : scanNumeral .valueMissing (s ++ rest) = .ok (⟨s, [], none⟩, rest) := by
    have hwritten := scanNumeral_written (n := ⟨s, [], none⟩)
      ⟨hs.digits, hs.lead, nofun, nofun⟩ hrest .valueMissing
    rwa [Numeral.written, if_pos rfl, exponentText, List.append_nil, List.append_nil] at hwritten
  have hnumber : readNumber false (s ++ rest) =
      .ok (.natural (Nat.ofDigitChars 10 s 0), rest) := by
    simp only [readNumber, hscan, value_of_digits hfits]
  have hany : readAnyNumber wanted (blanks.1 ++ (s ++ rest)) =
      .ok (.natural (Nat.ofDigitChars 10 s 0), rest) := by
    obtain ⟨c, r, rfl, hc⟩ := hs.exists_cons
    rw [readAnyNumber, skipSpace_blanks, List.cons_append,
      skipSpace_of_not_space (isSpace_of_isDigit hc)]
    simp only [if_neg (ne_of_isDigit hc (by decide : isDigit '-' = false)), hc, if_true]
    exact hnumber
  simp only [readNatural, hany, if_pos hbound]

/-! ## Fields -/

/-- A field of a record: its name, what it may hold, and how that changes the record. -/
structure Known (σ : Type) where
  name : String
  typed : Meaning → Prop
  set : Meaning → σ → σ

/-- The field that a name means. -/
def known? (known : List (Known σ)) (name : Option String) : Option (Known σ) :=
  name.bind fun name => known.find? (·.name = name)

/-- What a member does to a record; an unknown name does nothing. -/
def assign (known : List (Known σ)) (v : σ) (member : Option String × Meaning) : σ :=
  match known? known member.1 with
  | some field => field.set member.2 v
  | none => v

/-- Members that make a record: each known name at most once and with what it may hold. Which names
there may be is left open. -/
structure Fits (allowed : Option String → Prop) (known : List (Known σ))
    (members : List (Option String × Meaning)) : Prop where
  named : ∀ m ∈ members, allowed m.1
  once : ∀ field ∈ known, members.countP (·.1 = some field.name) ≤ 1
  typed : ∀ field ∈ known, ∀ m, (some field.name, m) ∈ members → field.typed m

/-- The reader of a field does what is known of the field. -/
structure Serves (depth : Nat) (field : RecordField σ) (known : Known σ) : Prop where
  name : field.name = known.name
  optional : field.required = false
  reads : ∀ m s, known.typed m → Spells m s → Reads (field.read depth) s (known.set m)

variable {σ : Type} {fields : List (RecordField σ)} {known : List (Known σ)}
  {allowed : Option String → Prop}

theorem Fits.tail {m : Option String × Meaning} {members : List (Option String × Meaning)}
    (h : Fits allowed known (m :: members)) : Fits allowed known members where
  named m' hm' := h.named m' (List.mem_cons_of_mem _ hm')
  once field hfield := by
    have honce := h.once field hfield
    rw [List.countP_cons] at honce
    omega
  typed field hfield m' hm' := h.typed field hfield m' (List.mem_cons_of_mem _ hm')

/-- Rows whose members have the same names are looked through alike. -/
theorem find_pair {α β : Type} {R : α → β → Prop} {f : α → String} {g : β → String}
    (hname : ∀ {a b}, R a b → f a = g b) {as : List α} {bs : List β} (h : List.Forall₂ R as bs)
    (name : String) :
    (as.find? (f · = name) = none ∧ bs.find? (g · = name) = none) ∨
      ∃ a b, as.find? (f · = name) = some a ∧ bs.find? (g · = name) = some b ∧ R a b := by
  induction h with
  | nil => exact .inl ⟨rfl, rfl⟩
  | @cons a b as bs hab _ ih =>
    by_cases hb : g b = name
    · have ha : f a = name := (hname hab).trans hb
      refine .inr ⟨a, b, ?_, ?_, hab⟩
      · exact List.find?_cons_of_pos (by simpa using ha)
      · exact List.find?_cons_of_pos (by simpa using hb)
    · have ha : f a ≠ name := fun h => hb ((hname hab).symm.trans h)
      rw [List.find?_cons_of_neg (by simpa using ha), List.find?_cons_of_neg (by simpa using hb)]
      exact ih

theorem find_serves (h : List.Forall₂ (Serves depth) fields known) (name : String) :
    (fields.find? (·.name = name) = none ∧ known.find? (·.name = name) = none) ∨
      ∃ field k, fields.find? (·.name = name) = some field ∧
        known.find? (·.name = name) = some k ∧ Serves depth field k :=
  find_pair (fun {field k} (hfield : Serves depth field k) => hfield.name) h name

theorem missing_of_serves (h : List.Forall₂ (Serves depth) fields known) (seen : List String) :
    missing? fields seen = none := by
  have hoptional : ∀ field ∈ fields, field.required = false := by
    induction h with
    | nil => exact nofun
    | cons hserves _ ih => exact List.forall_mem_cons.2 ⟨hserves.optional, ih⟩
  have hnone : fields.find? (fun f => f.required && !seen.contains f.name) = none := by
    rw [List.find?_eq_none]
    intro field hfield
    simp [hoptional field hfield]
  rw [missing?, hnone]
  rfl

theorem RecordField.of_reads {name : String} {required : Bool} {read : Reader α}
    {set : α → σ → σ} {x : α} (h : Reads (read depth) s x) :
    Reads ((RecordField.of name required read set).read depth) s (set x) :=
  fun blanks rest hrest => RecordField.of_read (h blanks rest hrest)

/-! ## Records -/

theorem nextMember_write {first : Bool} {name : String} {m : Member} {ms : List Member}
    (hname : m.name.text = some name) (blanks : Blanks) (rest : List Char) :
    nextMember first (blanks.1 ++ sequence Member.write first (m :: ms) rest) =
      .ok (some name, m.tail (sequence Member.write false ms rest)) := by
  have hkey : ∀ r, readKey (m.name.write r) = .ok (some name, r) := by
    intro r
    rw [readKey.eq_def, Marked.write]
    simp only [if_true, readString_spelled ((m.name.meant name).1 hname) r]
    rw [String.ofList_toList]
  have hskip : ∀ r, skipSpace (m.write r) = m.name.write (m.tail r) := by
    intro r
    rw [Member.write, skipSpace_blanks]
    exact skipSpace_of_not_space (by decide) _
  cases first with
  | true =>
    rw [nextMember, skipSpace_blanks, sequence, hskip]
    exact hkey _
  | false =>
    rw [nextMember, skipSpace_blanks, sequence, skipSpace_of_not_space (by decide)]
    simp only [hskip]
    exact hkey _

theorem nextMember_end (first : Bool) (blanks behind : Blanks) (rest : List Char) :
    nextMember first (blanks.1 ++ (behind.1 ++ '\x7d' :: rest)) = .ok (none, '\x7d' :: rest) := by
  rw [nextMember, skipSpace_blanks, skipSpace_blanks, skipSpace_of_not_space (by decide)]
  rfl

theorem readNamed_spelled (hserves : List.Forall₂ (Serves depth) fields known)
    {members : List Member} (hspells : ∀ m ∈ members, Spells m.value.meaning m.value.text)
    (hfits : Fits (·.isSome) known (members.map (·.meaning))) {seen : List String}
    (hseen : ∀ name ∈ seen, ∀ m ∈ members, m.name.text ≠ some name) (fuel : Nat) (first : Bool)
    (v : σ) (blanks behind : Blanks) (rest : List Char) :
    readNamed fields depth (fuel + 1 + members.length) first seen v
        (blanks.1 ++ sequence Member.write first members (behind.1 ++ '\x7d' :: rest)) =
      .ok ((members.map (·.meaning)).foldl (assign known) v, '\x7d' :: rest) := by
  induction members generalizing seen first v blanks with
  | nil =>
    rw [sequence]
    simp only [List.length_nil, add_zero, readNamed, nextMember_end, missing_of_serves hserves,
      List.map_nil, List.foldl_nil]
  | cons m ms ih =>
    obtain ⟨name, hname⟩ : ∃ name, m.name.text = some name :=
      Option.isSome_iff_exists.1 (hfits.named _ List.mem_cons_self)
    have hleaves : Leaves (sequence Member.write false ms (behind.1 ++ '\x7d' :: rest)) :=
      leaves_sequence ((leaves_cons (by decide) rest).blanks behind)
    have hvalue := hspells m List.mem_cons_self
    have hlater : ∀ m' ∈ ms, Spells m'.value.meaning m'.value.text := fun m' hm' =>
      hspells m' (List.mem_cons_of_mem _ hm')
    rw [show fuel + 1 + (m :: ms).length = fuel + 1 + ms.length + 1 by
      rw [List.length_cons]; omega, List.map_cons, List.foldl_cons]
    simp only [readNamed, nextMember_write hname, Member.readColon_tail, Item.write]
    rcases find_serves hserves name with ⟨hfield, hknown⟩ | ⟨field, k, hfield, hknown, hserve⟩
    · have hassign : assign known v m.meaning = v := by
        simp only [assign, known?, Member.meaning, hname, Option.bind_some, hknown]
      have hskip := skipValue_spelled hvalue m.value.before (hleaves.blanks m.value.behind)
      simp only [hfield, hskip, hassign]
      exact ih hlater hfits.tail (fun n hn m' hm' => hseen n hn m' (List.mem_cons_of_mem _ hm'))
        false v m.value.behind
    · have hk : k ∈ known := List.mem_of_find?_eq_some hknown
      have hkname : k.name = name := by simpa using List.find?_some hknown
      have hassign : assign known v m.meaning = k.set m.value.meaning v := by
        simp only [assign, known?, Member.meaning, hname, Option.bind_some, hknown]
      have htyped : k.typed m.value.meaning := by
        refine hfits.typed k hk _ ?_
        rw [hkname, ← hname]
        exact List.mem_cons_self
      have hread := hserve.reads _ _ htyped hvalue m.value.before _
        (hleaves.blanks m.value.behind)
      have hnew : seen.contains name = false := by
        rw [List.contains_eq_mem, decide_eq_false_iff_not]
        exact fun hmem => hseen name hmem m List.mem_cons_self hname
      -- the name has been seen now, and no later member has it
      have hseen' : ∀ n ∈ name :: seen, ∀ m' ∈ ms, m'.name.text ≠ some n := by
        intro n hn m' hm'
        rcases List.mem_cons.1 hn with rfl | hn
        · have hfirst : m.meaning.1 = some n := hname
          have honce := hfits.once k hk
          rw [List.map_cons, List.countP_cons, hkname, if_pos (decide_eq_true hfirst)] at honce
          have hzero : (ms.map (·.meaning)).countP (·.1 = some n) = 0 := by omega
          have hnone := List.countP_eq_zero.1 hzero m'.meaning (List.mem_map_of_mem hm')
          exact fun h => hnone (decide_eq_true h)
        · exact hseen n hn m' (List.mem_cons_of_mem _ hm')
      simp only [hfield, hnew, Bool.false_eq_true, if_false, hread, hassign]
      exact ih hlater hfits.tail hseen' false _ m.value.behind

theorem length_le_sequence (members : List Member) (first : Bool) (rest : List Char) :
    members.length ≤ (sequence Member.write first members rest).length := by
  induction members generalizing first with
  | nil => exact Nat.zero_le _
  | cons m ms ih =>
    have hms := ih false
    cases first with
    | true =>
      simp only [sequence, Member.write, Marked.write, Member.tail, Item.write,
        List.length_append, List.length_cons]
      omega
    | false =>
      simp only [sequence, Member.write, Marked.write, Member.tail, Item.write,
        List.length_append, List.length_cons]
      omega

/-- A record is read from an object that it fits, and is what the members make of it. -/
theorem readRecord_spelled {title : String} {start : σ}
    (hserves : List.Forall₂ (Serves depth) fields known) {ms : List (Option String × Meaning)}
    (hs : Spells (.object ms) s) (hfits : Fits (·.isSome) known ms) :
    Reads (readRecord title fields start (depth + 1)) s (ms.foldl (assign known) start) := by
  obtain ⟨members, behind, rfl, hspells, rfl⟩ := hs.of_object
  intro blanks rest _
  have htail : (behind.1 ++ ['\x7d']) ++ rest = behind.1 ++ '\x7d' :: rest := by
    rw [List.append_assoc]
    rfl
  have hskip : ∀ r, readRecord title fields start (depth + 1) (blanks.1 ++ '\x7b' :: r) =
      readRecord title fields start (depth + 1) ('\x7b' :: r) := by
    intro r
    rw [readRecord, skipSpace_blanks]
    rfl
  rw [List.cons_append, sequence_append Member.write_append, htail, hskip]
  refine readRecord_object ?_
  have hlength := length_le_sequence members true (behind.1 ++ '\x7d' :: rest)
  obtain ⟨fuel, hfuel⟩ : ∃ fuel,
      (sequence Member.write true members (behind.1 ++ '\x7d' :: rest)).length + 1 =
        fuel + 1 + members.length :=
    ⟨(sequence Member.write true members (behind.1 ++ '\x7d' :: rest)).length - members.length,
      by omega⟩
  rw [hfuel]
  exact readNamed_spelled hserves hspells hfits (by simp) fuel true start .none behind rest

/-- An object that makes a record. -/
def IsRecord (allowed : Option String → Prop) (known : List (Known σ)) (m : Meaning) : Prop :=
  ∃ members, m = .object members ∧ Fits allowed known members

/-- What the members of an object make of a record. -/
def Meaning.assigned (known : List (Known σ)) (start : σ) : Meaning → σ
  | .object members => members.foldl (assign known) start
  | _ => start

theorem reads_record {title : String} {start : σ} {m : Meaning}
    (hserves : List.Forall₂ (Serves depth) fields known) (hm : IsRecord (·.isSome) known m)
    (hs : Spells m s) :
    Reads (readRecord title fields start (depth + 1)) s (m.assigned known start) := by
  obtain ⟨members, rfl, hfits⟩ := hm
  exact readRecord_spelled hserves hs hfits

/-- What one known field alone decides is what its member says, or else as it was at the start. -/
theorem get_assigned (get : σ → β) (value : Meaning → β) (name : String) {field : Known σ}
    (hfind : known.find? (·.name = name) = some field)
    (hself : ∀ m, field.typed m → ∀ v, get (field.set m v) = value m)
    (hother : ∀ k ∈ known, k.name ≠ name → ∀ m v, get (k.set m v) = get v)
    {m : Meaning} (hm : IsRecord allowed known m) (start : σ) :
    get (m.assigned known start) = ((m.member? name).map value).getD (get start) := by
  obtain ⟨ms, rfl, hfits⟩ := hm
  have hmem : field ∈ known := List.mem_of_find?_eq_some hfind
  obtain rfl : field.name = name := by simpa using List.find?_some hfind
  show get (ms.foldl (assign known) start) = _
  induction ms generalizing start with
  | nil => rfl
  | cons member ms ih =>
    obtain ⟨name, m⟩ := member
    have honce := hfits.once field hmem
    rw [List.countP_cons] at honce
    rw [List.foldl_cons, ih _ hfits.tail]
    by_cases hname : name = some field.name
    · subst hname
      rw [if_pos (decide_eq_true rfl)] at honce
      have hzero : ms.countP (·.1 = some field.name) = 0 := by omega
      have hnone : (Meaning.object ms).member? field.name = none := by
        refine Meaning.member?_eq_none fun p hp h => ?_
        exact List.countP_eq_zero.1 hzero p hp (decide_eq_true h)
      have hset : assign known start (some field.name, m) = field.set m start := by
        simp only [assign, known?, Option.bind_some, hfind]
      rw [hnone, Meaning.member?_cons_self, hset]
      exact hself m (hfits.typed field hmem m List.mem_cons_self) start
    · have hset : get (assign known start (name, m)) = get start := by
        rw [assign]
        split
        · next k hk =>
          obtain ⟨n, hn, hk⟩ := Option.bind_eq_some_iff.1 hk
          have hkname : k.name = n := by simpa using List.find?_some hk
          refine hother k (List.mem_of_find?_eq_some hk) ?_ m start
          intro heq
          exact hname (hn.trans (congrArg some (hkname.symm.trans heq)))
        · rfl
      rw [Meaning.member?_cons_ne hname, hset]

/-! ## Whole texts -/

/-- A document with blanks around it is read as what it is read as without them. -/
theorem readWhole_spelled {read : Reader α} {x : α} (h : Reads (read depthLimit) s x)
    (before behind : Blanks) : readWhole read (before.1 ++ (s ++ behind.1)) = .ok x := by
  have hleaves : Leaves behind.1 := by
    have h := leaves_nil.blanks behind
    rwa [List.append_nil] at h
  have hblank : skipSpace behind.1 = [] := List.dropWhile_eq_nil_iff.2 behind.2
  simp only [readWhole, h before behind.1 hleaves, hblank]

end PromptRunner.Json
