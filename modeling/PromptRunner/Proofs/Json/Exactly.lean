import PromptRunner.Proofs.Json.Denoting

/-!
# Readers that take a shape and nothing else

A shape says which documents have it, by meaning and text, and what value each of them is.
`ReadsExactly` says that a reader takes a shape, in both directions. A document of the shape is read
wherever it stands, and whatever has been read was a document of the shape, with blanks in front of
it. So what a reader says of a whole text is what the shape says (`ReadsExactly.whole`), and
nothing about budgets, blanks or places is left.

Readers are put together from smaller ones, and so are their shapes: values that may be null,
lists of values, and in a module of their own the records.
-/

namespace PromptRunner.Json

variable {d bound : Nat} {s r t text : List Char} {m m' : Meaning} {wanted : String} {first : Bool}

/-- Some documents, by meaning and text, and what each is read as. -/
structure Shape (α : Type) where
  takes : Meaning → List Char → α → Prop
  spells : ∀ {m t x}, takes m t x → Spells m t

/-- A reader takes the documents of a shape, and nothing else. -/
structure ReadsExactly (read : List Char → Reading α) (L : Shape α) : Prop where
  reads : ∀ {m t x}, L.takes m t x → Reads read t x
  sound : ∀ {s x r}, read s = .ok (x, r) →
    ∃ (before : Blanks) (m : Meaning) (t : List Char), s = before.1 ++ (t ++ r) ∧ L.takes m t x

variable {L : Shape α} {read : Reader α} {x y : α}

/-- A whole text is a document that means this, with blanks around it. -/
def Says (text : List Char) (m : Meaning) : Prop :=
  ∃ (before behind : Blanks) (t : List Char), text = before.1 ++ (t ++ behind.1) ∧ Spells m t

theorem leaves_blanks (behind : Blanks) : Leaves behind.1 := by
  have h := leaves_nil.blanks behind
  rwa [List.append_nil] at h

theorem Says.unique (h : Says text m) (h' : Says text m') : m = m' := by
  obtain ⟨before, behind, t, rfl, ht⟩ := h
  obtain ⟨before', behind', t', heq, ht'⟩ := h'
  obtain ⟨rfl, -⟩ := ht.ends_together ht' (leaves_blanks behind) (leaves_blanks behind') heq
  exact ht.unique ht'

/-- A whole text is a document of a shape, with blanks around it. -/
def Written (L : Shape α) (text : List Char) (m : Meaning) (x : α) : Prop :=
  ∃ (before behind : Blanks) (t : List Char), text = before.1 ++ (t ++ behind.1) ∧ L.takes m t x

theorem Written.says (h : Written L text m x) : Says text m := by
  obtain ⟨before, behind, t, hs, ht⟩ := h
  exact ⟨before, behind, t, hs, L.spells ht⟩

theorem ReadsExactly.whole (h : ReadsExactly (read depthLimit) L) :
    readWhole read text = .ok x ↔ ∃ m, Written L text m x := by
  constructor
  · intro hread
    unfold readWhole at hread
    split at hread
    · cases hread
    · next v rest hv =>
      split at hread
      · next hblank =>
        cases hread
        obtain ⟨before, m, t, rfl, ht⟩ := h.sound hv
        obtain ⟨behind, hbehind⟩ := exists_skipSpace rest
        rw [hblank, List.append_nil] at hbehind
        exact ⟨m, before, behind, t, by rw [hbehind], ht⟩
      · cases hread
  · rintro ⟨m, before, behind, t, rfl, ht⟩
    exact readWhole_spelled (h.reads ht) before behind

/-! ## Values -/

/-- The values at most so many brackets deep. -/
def Shape.values (d : Nat) : Shape Value := ⟨Denotes d, Denotes.spells⟩

theorem readsExactly_value : ReadsExactly (readValue d) (.values d) where
  reads := Denotes.reads
  sound := of_readValue

/-- Which texts are parsed, and as what. -/
theorem parse_eq_ok_iff {text : String} {v : Value} :
    Value.parse text = .ok v ↔ ∃ m, Written (.values depthLimit) text.toList m v :=
  readsExactly_value.whole

/-! ## Texts and numbers -/

/-- Strings that are texts. -/
def Shape.texts : Shape String where
  takes m t x := m = .string (some x) ∧ Spells m t
  spells h := h.2

theorem readsExactly_text : ReadsExactly (readText wanted d) .texts where
  reads := by
    rintro m t x ⟨rfl, h⟩
    exact reads_text h
  sound := by
    intro s x r h
    unfold readText at h
    split at h
    · cases h
    · next c u hskip =>
      obtain ⟨-, before, rfl⟩ := of_skipSpace hskip
      split at h
      · next hquote =>
        obtain ⟨⟨text, w⟩, hw, heq⟩ := map_eq_ok h
        cases heq
        obtain ⟨marked, htext, hu⟩ := exists_marked_of_readString hw
        refine ⟨before, _, marked.write [], ?_, rfl, ?_⟩
        · rw [hquote, hu, Marked.write_append, List.nil_append]
        · rw [← htext]
          exact .string marked
      · cases h

/-- Whole numbers without a sign, below a bound. -/
def Shape.naturals (bound : Nat) : Shape Nat where
  takes m t n := m = .natural n ∧ Spells m t ∧ n < bound
  spells h := h.2.1

theorem readsExactly_natural (hbound : bound ≤ natural64Max + 1) :
    ReadsExactly (readNatural bound wanted d) (.naturals bound) where
  reads := by
    rintro m t n ⟨rfl, h, hn⟩
    exact reads_natural h hn (Nat.le_of_lt_succ (lt_of_lt_of_le hn hbound))
  sound := by
    intro s n r h
    unfold readNatural at h
    split at h
    · cases h
    · next k w hany =>
      split at h
      · next hn =>
        cases h
        unfold readAnyNumber at hany
        split at hany
        · cases hany
        · next c u hskip =>
          obtain ⟨-, before, rfl⟩ := of_skipSpace hskip
          split_ifs at hany
          · obtain ⟨whole, fraction, exponent, -, -, hfraction, hexponent, hvalue⟩ :=
              of_readNumber hany
            obtain ⟨-, -, hpositive, -⟩ := of_numeralOf_natural hfraction hexponent hvalue
            cases hpositive
          · obtain ⟨whole, fraction, exponent, hu, hwhole, hfraction, hexponent, hvalue⟩ :=
              of_readNumber hany
            obtain ⟨rfl, rfl, -, rfl, -⟩ := of_numeralOf_natural hfraction hexponent hvalue
            exact ⟨before, _, whole, by rw [hu]; rfl, rfl, .natural hwhole, hn⟩
      · cases h
    · cases h
    · cases h

/-! ## What may be null -/

/-- Null, or a document of a shape that null has not. -/
def Shape.nullable (L : Shape α) : Shape (Option α) where
  takes m t o :=
    match o with
    | none => m = .null ∧ Spells m t
    | some x => m ≠ .null ∧ L.takes m t x
  spells := by
    intro m t o h
    cases o with
    | none => exact h.2
    | some x => exact L.spells h.2

theorem readsExactly_optional (h : ReadsExactly (read d) L) :
    ReadsExactly (readOptional read d) L.nullable where
  reads := by
    intro m t o ho
    cases o with
    | none =>
      obtain ⟨rfl, ht⟩ := ho
      exact reads_null ht
    | some x =>
      obtain ⟨hm, ht⟩ := ho
      intro before rest hrest
      have hread := h.reads ht .none rest hrest
      obtain ⟨c, u, rfl, hspace, -⟩ := (L.spells ht).exists_cons
      have hc : c ≠ 'n' := by
        rintro rfl
        exact hm (L.spells ht).begins.kind
      rw [readOptional, skipSpace_blanks, List.cons_append, skipSpace_of_not_space hspace]
      split
      · next u' heq => exact absurd (List.cons.inj heq).1 hc
      · show (read d (c :: u ++ rest)).map _ = _
        rw [Blanks.none, List.nil_append] at hread
        rw [hread]
        rfl
  sound := by
    intro s o r ho
    unfold readOptional at ho
    obtain ⟨lead, hs⟩ := exists_skipSpace s
    split at ho
    · next u hskip =>
      obtain ⟨w, hw, heq⟩ := map_eq_ok ho
      cases heq
      rw [hskip, of_readWord hw] at hs
      exact ⟨lead, .null, _, hs, rfl, .null⟩
    · next hnot =>
      obtain ⟨⟨x, w⟩, hw, heq⟩ := map_eq_ok ho
      cases heq
      obtain ⟨before, m, t, hskip, ht⟩ := h.sound hw
      refine ⟨lead.join before, m, t, ?_, ?_, ht⟩
      · rw [hs, hskip, Blanks.join, List.append_assoc]
      · -- a null would have been seen
        rintro rfl
        cases L.spells ht
        refine hnot ('u' :: 'l' :: 'l' :: r) ?_
        rw [← skipSpace_skipSpace, hskip, skipSpace_blanks]
        rfl

/-! ## Lists -/

/-- A document is a list of documents of a shape. -/
inductive ListOf (L : Shape α) : Meaning → List Char → List α → Prop where
  | items {items : List (Item × α)} (behind : Blanks)
      (h : ∀ i ∈ items, L.takes i.1.meaning i.1.text i.2) :
      ListOf L (.list ((items.map (·.1)).map (·.meaning)))
        ('[' :: sequence Item.write true (items.map (·.1)) (behind.1 ++ [']']))
        (items.map (·.2))

def Shape.list (L : Shape α) : Shape (List α) where
  takes := ListOf L
  spells := by
    rintro _ _ _ ⟨behind, h⟩
    exact .list behind (List.forall_mem_map.2 fun i hi => L.spells (h i hi))

theorem of_readElements (h : ReadsExactly (read d) L) {fuel : Nat} {xs : List α}
    (hread : readElements read d fuel first s = .ok (xs, r)) :
    ∃ items : List (Item × α), items.map (·.2) = xs ∧
      (∀ i ∈ items, L.takes i.1.meaning i.1.text i.2) ∧
      Row Item.write ']' first (items.map (·.1)) s r := by
  induction fuel generalizing first s xs with
  | zero => cases hread
  | succ fuel ih =>
    rw [readElements] at hread
    split at hread
    · cases hread
    · next u hnext =>
      obtain ⟨w, hw, heq⟩ := map_eq_ok hread
      cases heq
      obtain ⟨before, t, rfl, rfl⟩ := of_nextElement_end hnext
      obtain rfl : t = r := Except.ok.inj hw
      exact ⟨[], rfl, nofun, Row.closed before⟩
    · next u hnext =>
      split at hread
      · cases hread
      · next x w hx =>
        obtain ⟨⟨xs, w'⟩, hw, heq⟩ := map_eq_ok hread
        cases heq
        obtain ⟨before, m, t, rfl, ht⟩ := h.sound hx
        obtain ⟨items, rfl, hitems, hrow⟩ := ih hw
        obtain ⟨i, hi, hrow⟩ := Row.item (m := m) (of_nextElement hnext) hrow
        obtain ⟨htext, hmeaning⟩ := Prod.mk.inj hi
        refine ⟨(i, x) :: items, rfl, List.forall_mem_cons.2 ⟨?_, hitems⟩, hrow⟩
        rwa [htext, hmeaning]

theorem readElements_spelled (h : ReadsExactly (read d) L) {items : List (Item × α)}
    (hitems : ∀ i ∈ items, L.takes i.1.meaning i.1.text i.2) (first : Bool) (before behind : Blanks)
    (rest : List Char) (fuel : Nat) :
    readElements read d (fuel + 1 + items.length) first
        (before.1 ++ sequence Item.write first (items.map (·.1)) (behind.1 ++ ']' :: rest)) =
      .ok (items.map (·.2), rest) := by
  induction items generalizing first before with
  | nil =>
    rw [List.map_nil, sequence, List.length_nil, add_zero, readElements]
    simp only [nextElement_closed]
    rfl
  | cons item items ih =>
    obtain ⟨hitem, hrow⟩ := List.forall_mem_cons.1 hitems
    obtain ⟨c, u, hc, hspace, hclose⟩ := (L.spells hitem).exists_cons
    have hleaves : Leaves (sequence Item.write false (items.map (·.1)) (behind.1 ++ ']' :: rest)) :=
      leaves_sequence ((leaves_cons (by decide) rest).blanks behind)
    have hread := h.reads hitem .none _ (hleaves.blanks item.1.behind)
    have hlater := ih hrow false item.1.behind
    rw [Blanks.none, List.nil_append] at hread
    rw [show fuel + 1 + (item :: items).length = fuel + 1 + items.length + 1 by
      rw [List.length_cons]; omega, List.map_cons, readElements]
    simp only [nextElement_part hc hspace hclose, hread, hlater]
    rfl

/-- No part is empty. -/
theorem length_le_sequence_items {items : List Item} (h : ∀ i ∈ items, Spells i.meaning i.text)
    (first : Bool) (r : List Char) :
    items.length ≤ (sequence Item.write first items r).length := by
  induction items generalizing first with
  | nil => exact Nat.zero_le _
  | cons i items ih =>
    obtain ⟨hi, hitems⟩ := List.forall_mem_cons.1 h
    obtain ⟨c, u, hc, -⟩ := hi.exists_cons
    have hlater := ih hitems false
    have hpos : 0 < i.text.length := by
      rw [hc]
      exact Nat.succ_pos _
    cases first with
    | true =>
      simp only [sequence, Item.write, List.length_append, List.length_cons]
      omega
    | false =>
      simp only [sequence, Item.write, List.length_append, List.length_cons]
      omega

theorem readsExactly_list (h : ReadsExactly (read d) L) :
    ReadsExactly (readList read (d + 1)) L.list where
  reads := by
    rintro _ _ _ ⟨behind, hitems⟩
    next items =>
      intro before rest _
      have hspells : ∀ i ∈ items.map (·.1), Spells i.meaning i.text :=
        List.forall_mem_map.2 fun i hi => L.spells (hitems i hi)
      have hlength := length_le_sequence_items hspells true (behind.1 ++ ']' :: rest)
      rw [List.length_map] at hlength
      obtain ⟨fuel, hfuel⟩ := Nat.exists_eq_add_of_le hlength
      rw [readList, skipSpace_blanks, List.cons_append, skipSpace_of_not_space (by decide),
        sequence_append Item.write_append, List.append_assoc, List.singleton_append]
      show readElements read d _ true _ = _
      rw [show (sequence Item.write true (items.map (·.1)) (behind.1 ++ ']' :: rest)).length + 1 =
        fuel + 1 + items.length by omega]
      exact readElements_spelled h hitems true .none behind rest fuel
  sound := by
    intro s xs r hread
    unfold readList at hread
    split at hread
    · cases hread
    · next c u hskip =>
      obtain ⟨-, before, rfl⟩ := of_skipSpace hskip
      split at hread
      · next hlist =>
        obtain ⟨items, rfl, hitems, hrow⟩ := of_readElements h hread
        obtain ⟨closed, behind, hclosed, rfl⟩ := hrow
        refine ⟨before, _, _, ?_, .items behind hitems⟩
        rw [hclosed rfl, hlist, List.cons_append, sequence_append Item.write_append,
          List.append_assoc]
        rfl
      · cases hread

end PromptRunner.Json
