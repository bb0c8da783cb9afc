import PromptRunner.Proofs.Json.Exactly

/-!
# Which documents are records

A record is an object with its fields by name, in any order and with others among them, or a list
with its fields in order, of which the last ones may be left out if they need not be there. Both
forms are followed field by field (`Filled`, `InOrder`), each member with what it does to the
record: a field that is known changes it, and any other leaves it as it is. `readsExactly_record`
says that the reader takes these documents and no others.

What a part of a record is then hangs on one field alone, wherever that stands
(`RecordOf.get_eq`), and where no other field touches it.
-/

namespace PromptRunner.Json

variable {σ : Type} {d : Nat} {s r t : List Char} {m : Meaning} {first : Bool}

/-- What a field takes: which documents, and how each changes the record. -/
structure FieldShape (σ : Type) where
  name : String
  required : Bool
  shape : Shape (σ → σ)

/-- The reader of a field takes what is known of the field. -/
structure ServesExactly (d : Nat) (field : RecordField σ) (known : FieldShape σ) : Prop where
  name : field.name = known.name
  required : field.required = known.required
  exactly : ReadsExactly (field.read d) known.shape

/-- Documents of a shape, and what they change. -/
def Shape.setting (L : Shape α) (set : α → σ → σ) : Shape (σ → σ) where
  takes m t f := ∃ x, L.takes m t x ∧ f = set x
  spells := by
    rintro m t f ⟨x, hx, -⟩
    exact L.spells hx

/-- A field that holds a document of a shape. -/
def FieldShape.of (name : String) (required : Bool) (L : Shape α) (set : α → σ → σ) :
    FieldShape σ :=
  ⟨name, required, L.setting set⟩

theorem servesExactly_of {name : String} {required : Bool} {read : Reader α} {L : Shape α}
    {set : α → σ → σ} (h : ReadsExactly (read d) L) :
    ServesExactly d (.of name required read set) (.of name required L set) where
  name := rfl
  required := rfl
  exactly :=
    { reads := by
        rintro m t f ⟨x, hx, rfl⟩
        exact RecordField.of_reads (h.reads hx)
      sound := by
        intro s f r hread
        obtain ⟨⟨x, w⟩, hx, heq⟩ := map_eq_ok hread
        cases heq
        obtain ⟨before, m, t, hs, ht⟩ := h.sound hx
        exact ⟨before, m, t, hs, x, ht, rfl⟩ }

/-- What comes of a record that is changed several times. -/
def applied (changes : List (σ → σ)) (v : σ) : σ := changes.foldl (fun v f => f v) v

/-- Members that make a record, with the names that were seen before them: each known name once, and
at the end no field missing. -/
inductive Filled (known : List (FieldShape σ)) :
    List String → List (Member × (σ → σ)) → Prop where
  | nil {seen : List String}
      (h : ∀ field ∈ known, field.required = true → field.name ∈ seen) : Filled known seen []
  | known {seen : List String} {name : String} {field : FieldShape σ} {part : Member}
      {f : σ → σ} {parts : List (Member × (σ → σ))} (hname : part.name.text = some name)
      (hfield : known.find? (·.name = name) = some field) (hnew : name ∉ seen)
      (htakes : field.shape.takes part.value.meaning part.value.text f)
      (h : Filled known (name :: seen) parts) : Filled known seen ((part, f) :: parts)
  | other {seen : List String} {name : String} {part : Member}
      {parts : List (Member × (σ → σ))} (hname : part.name.text = some name)
      (hfield : known.find? (·.name = name) = none)
      (hspells : Spells part.value.meaning part.value.text)
      (h : Filled known seen parts) : Filled known seen ((part, id) :: parts)

/-- Values that make a record as a list. -/
inductive InOrder : List (FieldShape σ) → List (Item × (σ → σ)) → Prop where
  | rest {known : List (FieldShape σ)} (h : ∀ field ∈ known, field.required = false) :
      InOrder known []
  | field {field : FieldShape σ} {known : List (FieldShape σ)} {part : Item} {f : σ → σ}
      {parts : List (Item × (σ → σ))} (htakes : field.shape.takes part.meaning part.text f)
      (h : InOrder known parts) : InOrder (field :: known) ((part, f) :: parts)

/-- A document is a record of these fields. -/
inductive RecordOf (known : List (FieldShape σ)) (start : σ) :
    Meaning → List Char → σ → Prop where
  | object {parts : List (Member × (σ → σ))} (behind : Blanks) (h : Filled known [] parts) :
      RecordOf known start (.object ((parts.map (·.1)).map (·.meaning)))
        ('\x7b' :: sequence Member.write true (parts.map (·.1)) (behind.1 ++ ['\x7d']))
        (applied (parts.map (·.2)) start)
  | list {parts : List (Item × (σ → σ))} (behind : Blanks) (h : InOrder known parts) :
      RecordOf known start (.list ((parts.map (·.1)).map (·.meaning)))
        ('[' :: sequence Item.write true (parts.map (·.1)) (behind.1 ++ [']']))
        (applied (parts.map (·.2)) start)

variable {known : List (FieldShape σ)} {fields : List (RecordField σ)} {seen : List String}

theorem Filled.spells {parts : List (Member × (σ → σ))} (h : Filled known seen parts) :
    ∀ m ∈ parts.map (·.1), Spells m.value.meaning m.value.text := by
  induction h with
  | nil => exact nofun
  | @known _ _ field _ _ _ _ _ _ htakes _ ih =>
    exact List.forall_mem_cons.2 ⟨field.shape.spells htakes, ih⟩
  | other _ _ hspells _ ih => exact List.forall_mem_cons.2 ⟨hspells, ih⟩

theorem InOrder.spells {parts : List (Item × (σ → σ))} (h : InOrder known parts) :
    ∀ i ∈ parts.map (·.1), Spells i.meaning i.text := by
  induction h with
  | rest => exact nofun
  | @field field _ _ _ _ htakes _ ih =>
    exact List.forall_mem_cons.2 ⟨field.shape.spells htakes, ih⟩

/-- The records of these fields. -/
def Shape.record (known : List (FieldShape σ)) (start : σ) : Shape σ where
  takes := RecordOf known start
  spells := by
    rintro _ _ _ (⟨behind, h⟩ | ⟨behind, h⟩)
    · exact .object behind h.spells
    · exact .list behind h.spells

/-! ## Fields that readers serve -/

theorem find_servesExactly (h : List.Forall₂ (ServesExactly d) fields known) (name : String) :
    (fields.find? (·.name = name) = none ∧ known.find? (·.name = name) = none) ∨
      ∃ field k, fields.find? (·.name = name) = some field ∧
        known.find? (·.name = name) = some k ∧ ServesExactly d field k :=
  find_pair (fun {field k} (hfield : ServesExactly d field k) => hfield.name) h name

theorem missing?_eq_none_iff (h : List.Forall₂ (ServesExactly d) fields known) :
    missing? fields seen = none ↔ ∀ field ∈ known, field.required = true → field.name ∈ seen := by
  rw [missing?, Option.map_eq_none_iff, List.find?_eq_none]
  induction h with
  | nil => exact iff_of_true (List.forall_mem_nil _) (List.forall_mem_nil _)
  | cons hserves _ ih =>
    rw [List.forall_mem_cons, List.forall_mem_cons, ih, hserves.name, hserves.required]
    simp

/-! ## What has been read is a record -/

theorem of_readNamed (hserves : List.Forall₂ (ServesExactly d) fields known) {fuel : Nat}
    {v w : σ} (h : readNamed fields d fuel first seen v s = .ok (w, r)) :
    ∃ (parts : List (Member × (σ → σ))) (u : List Char), r = '\x7d' :: u ∧
      Filled known seen parts ∧ w = applied (parts.map (·.2)) v ∧
      Row Member.write '\x7d' first (parts.map (·.1)) s u := by
  induction fuel generalizing first seen v s with
  | zero => cases h
  | succ fuel ih =>
    rw [readNamed] at h
    split at h
    · cases h
    · next u hnext =>
      split at h
      · cases h
      · next hmissing =>
        cases h
        obtain ⟨before, u, rfl, rfl⟩ := of_nextMember_end hnext
        exact ⟨[], u, rfl, .nil ((missing?_eq_none_iff hserves).1 hmissing), rfl,
          Row.closed before⟩
    · next key u hnext =>
      obtain ⟨name, hname, hentered⟩ := of_nextMember hnext
      rcases find_servesExactly hserves key with
        ⟨hfield, hknown⟩ | ⟨field, k, hfield, hknown, hserve⟩
      · rw [hfield] at h
        simp only at h
        split at h
        · cases h
        · next x hcolon =>
          obtain ⟨colon, rfl⟩ := of_readColon hcolon
          split at h
          · cases h
          · next y hskip =>
            obtain ⟨before, m, t, rfl, ht⟩ := of_skipValue hskip
            obtain ⟨parts, u, rfl, hparts, rfl, hrow⟩ := ih h
            obtain ⟨part, rfl, hvalue, hrow⟩ := Row.member (m := m) hentered hrow
            obtain ⟨htext, hmeaning⟩ := Prod.mk.inj hvalue
            refine ⟨(part, id) :: parts, u, rfl, .other hname hknown ?_ hparts, rfl, hrow⟩
            rwa [htext, hmeaning]
      · rw [hfield] at h
        simp only at h
        split at h
        · cases h
        · next hnew =>
          split at h
          · cases h
          · next x hcolon =>
            obtain ⟨colon, rfl⟩ := of_readColon hcolon
            split at h
            · cases h
            · next f y hf =>
              obtain ⟨before, m, t, rfl, ht⟩ := hserve.exactly.sound hf
              obtain ⟨parts, u, rfl, hparts, rfl, hrow⟩ := ih h
              obtain ⟨part, rfl, hvalue, hrow⟩ := Row.member (m := m) hentered hrow
              obtain ⟨htext, hmeaning⟩ := Prod.mk.inj hvalue
              refine ⟨(part, f) :: parts, u, rfl, .known hname hknown ?_ ?_ hparts, rfl, hrow⟩
              · simpa using hnew
              · rwa [htext, hmeaning]

theorem Row.of_closing {close : Char} {write : α → List Char → List Char} {parts : List α}
    (hspace : isSpace close = false) (hcomma : close ≠ ',')
    (h : Row write close false parts (close :: t) r) : parts = [] ∧ t = r := by
  obtain ⟨before, behind, -, heq⟩ := h
  have hskip := congrArg skipSpace heq
  rw [skipSpace_of_not_space hspace, skipSpace_blanks] at hskip
  cases parts with
  | nil =>
    rw [sequence, skipSpace_blanks, skipSpace_of_not_space hspace] at hskip
    exact ⟨rfl, (List.cons.inj hskip).2⟩
  | cons part parts => exact absurd (List.cons.inj hskip).1 hcomma

theorem of_readInOrder (hserves : List.Forall₂ (ServesExactly d) fields known) {wanted : String}
    {index : Nat} {v w : σ} {u : List Char} (h : readInOrder wanted d fields index v s = .ok (w, u))
    (hclose : closeList u = .ok r) :
    ∃ parts : List (Item × (σ → σ)), InOrder known parts ∧ w = applied (parts.map (·.2)) v ∧
      Row Item.write ']' (index == 0) (parts.map (·.1)) s r := by
  induction hserves generalizing index v s with
  | nil =>
    cases h
    obtain ⟨before, rfl⟩ := of_closeList hclose
    exact ⟨[], .rest nofun, rfl, Row.closed before⟩
  | @cons field k fields known hserve _ ih =>
    rw [readInOrder] at h
    split at h
    · cases h
    · next x hnext =>
      split at h
      · cases h
      · next hoptional =>
        obtain ⟨before, t, rfl, rfl⟩ := of_nextElement_end hnext
        obtain ⟨parts, hparts, rfl, hrow⟩ := ih h
        obtain ⟨hnil, rfl⟩ := Row.of_closing rfl (by decide) hrow
        obtain rfl := List.map_eq_nil_iff.1 hnil
        cases hparts with
        | rest hrest =>
          have hk : k.required = false := by
            rw [← hserve.required]
            exact eq_false_of_ne_true hoptional
          exact ⟨[], .rest (List.forall_mem_cons.2 ⟨hk, hrest⟩), rfl, Row.closed before⟩
    · next x hnext =>
      split at h
      · cases h
      · next f y hf =>
        obtain ⟨before, m, t, rfl, ht⟩ := hserve.exactly.sound hf
        obtain ⟨parts, hparts, rfl, hrow⟩ := ih h
        obtain ⟨part, hvalue, hrow⟩ := Row.item (m := m) (of_nextElement hnext) hrow
        obtain ⟨htext, hmeaning⟩ := Prod.mk.inj hvalue
        refine ⟨(part, f) :: parts, .field ?_ hparts, rfl, hrow⟩
        rwa [htext, hmeaning]

/-! ## Records are read -/

theorem readNamed_filled (hserves : List.Forall₂ (ServesExactly d) fields known)
    {parts : List (Member × (σ → σ))} (h : Filled known seen parts) (fuel : Nat) (first : Bool)
    (v : σ) (before behind : Blanks) (rest : List Char) :
    readNamed fields d (fuel + 1 + parts.length) first seen v
        (before.1 ++ sequence Member.write first (parts.map (·.1)) (behind.1 ++ '\x7d' :: rest)) =
      .ok (applied (parts.map (·.2)) v, '\x7d' :: rest) := by
  have hleaves : ∀ parts : List (Member × (σ → σ)),
      Leaves (sequence Member.write false (parts.map (·.1)) (behind.1 ++ '\x7d' :: rest)) :=
    fun parts => leaves_sequence ((leaves_cons (by decide) rest).blanks behind)
  have hcount : ∀ (part : Member × (σ → σ)) (parts : List (Member × (σ → σ))),
      fuel + 1 + (part :: parts).length = fuel + 1 + parts.length + 1 := fun _ _ => by
    rw [List.length_cons]
    omega
  induction h generalizing first v before with
  | nil hall =>
    rw [List.map_nil, sequence, List.length_nil, add_zero, readNamed]
    simp only [nextMember_end, (missing?_eq_none_iff hserves).2 hall]
    rfl
  | @known seen name k part f parts hname hknown hnew htakes _ ih =>
    rcases find_servesExactly hserves name with ⟨-, hnone⟩ | ⟨field, k', hfield, hk', hserve⟩
    · rw [hknown] at hnone
      cases hnone
    · obtain rfl : k = k' := Option.some.inj (hknown.symm.trans hk')
      have hread := hserve.exactly.reads htakes part.value.before _
        ((hleaves parts).blanks part.value.behind)
      have hseen : seen.contains name = false := by simpa using hnew
      rw [hcount, List.map_cons, readNamed]
      simp only [nextMember_write hname, hfield, hseen, Bool.false_eq_true, if_false,
        Member.readColon_tail, Item.write, hread]
      exact ih false (f v) part.value.behind
  | @other seen name part parts hname hknown hspells _ ih =>
    rcases find_servesExactly hserves name with ⟨hfield, -⟩ | ⟨field, k', -, hk', -⟩
    · have hskip := skipValue_spelled hspells part.value.before
        ((hleaves parts).blanks part.value.behind)
      rw [hcount, List.map_cons, readNamed]
      simp only [nextMember_write hname, hfield, Member.readColon_tail, Item.write, hskip]
      exact ih false v part.value.behind
    · rw [hknown] at hk'
      cases hk'

/-- What is left of a list that has ended leaves a record as it is. -/
theorem readInOrder_closed {wanted : String} (hoptional : ∀ field ∈ fields, field.required = false)
    (index : Nat) (v : σ) (before behind : Blanks) (rest : List Char) :
    ∃ u, readInOrder wanted d fields index v (before.1 ++ (behind.1 ++ ']' :: rest)) = .ok (v, u) ∧
      closeList u = .ok rest := by
  have hclose : ∀ before behind : Blanks,
      closeList (before.1 ++ (behind.1 ++ ']' :: rest)) = .ok rest := by
    intro before behind
    rw [closeList, skipSpace_blanks, skipSpace_blanks, skipSpace_of_not_space (by decide)]
    rfl
  induction fields generalizing index before behind with
  | nil => exact ⟨_, rfl, hclose before behind⟩
  | cons field fields ih =>
    obtain ⟨hfield, hfields⟩ := List.forall_mem_cons.1 hoptional
    obtain ⟨u, hu, hlast⟩ := ih hfields (index + 1) .none .none
    refine ⟨u, ?_, hlast⟩
    simp only [readInOrder, nextElement_closed, hfield, Bool.false_eq_true, if_false]
    exact hu

theorem readInOrder_inOrder (hserves : List.Forall₂ (ServesExactly d) fields known)
    {parts : List (Item × (σ → σ))} (h : InOrder known parts) (wanted : String) (index : Nat)
    (v : σ) (before behind : Blanks) (rest : List Char) :
    ∃ u, readInOrder wanted d fields index v (before.1 ++
        sequence Item.write (index == 0) (parts.map (·.1)) (behind.1 ++ ']' :: rest)) =
        .ok (applied (parts.map (·.2)) v, u) ∧ closeList u = .ok rest := by
  induction h generalizing fields index v before with
  | @rest known hrest =>
    refine readInOrder_closed ?_ index v before behind rest
    induction hserves with
    | nil => exact nofun
    | cons hserve _ ih =>
      obtain ⟨hk, hrest⟩ := List.forall_mem_cons.1 hrest
      exact List.forall_mem_cons.2 ⟨hserve.required.trans hk, ih hrest⟩
  | @field k known part f parts htakes _ ih =>
    cases hserves with
    | @cons field _ fields _ hserve hserves =>
      obtain ⟨c, u, hc, hspace, hclose⟩ := (k.shape.spells htakes).exists_cons
      have hleaves :
          Leaves (sequence Item.write false (parts.map (·.1)) (behind.1 ++ ']' :: rest)) :=
        leaves_sequence ((leaves_cons (by decide) rest).blanks behind)
      have hread := hserve.exactly.reads htakes .none _ (hleaves.blanks part.behind)
      rw [Blanks.none, List.nil_append] at hread
      obtain ⟨w, hw, hlast⟩ := ih hserves (index + 1) (f v) part.behind
      refine ⟨w, ?_, hlast⟩
      rw [List.map_cons, readInOrder]
      simp only [nextElement_part hc hspace hclose, hread]
      exact hw

theorem of_closing {close : List Char → Except Fault (List Char)}
    {towards : List Char → List Char} {x : Except Trouble (σ × List Char)} {v : σ}
    (h : closing close towards x = .ok (v, r)) : ∃ u, x = .ok (v, u) ∧ close u = .ok r := by
  unfold closing at h
  split at h
  · next w u =>
    obtain ⟨y, hy, heq⟩ := map_eq_ok h
    cases heq
    exact ⟨u, rfl, hy⟩
  · cases h
  · cases h

/-- The reader of a record takes the documents that are records of its fields. -/
theorem readsExactly_record (hserves : List.Forall₂ (ServesExactly d) fields known)
    (title : String) (start : σ) :
    ReadsExactly (readRecord title fields start (d + 1)) (.record known start) where
  reads := by
    rintro _ _ _ (@⟨parts, behind, h⟩ | @⟨parts, behind, h⟩)
    · intro before rest _
      have hlength := length_le_sequence (parts.map (·.1)) true (behind.1 ++ '\x7d' :: rest)
      rw [List.length_map] at hlength
      obtain ⟨fuel, hfuel⟩ := Nat.exists_eq_add_of_le hlength
      have hread := readNamed_filled hserves h fuel true start .none behind rest
      rw [readRecord, skipSpace_blanks, List.cons_append, skipSpace_of_not_space (by decide),
        sequence_append Member.write_append, List.append_assoc, List.singleton_append]
      show closing closeObject towardsObjectEnd (readNamed fields d (List.length _ + 1) _ _ _ _) = _
      rw [hfuel, show parts.length + fuel + 1 = fuel + 1 + parts.length by omega]
      rw [Blanks.none, List.nil_append] at hread
      rw [hread]
      rfl
    · intro before rest _
      obtain ⟨u, hread, hclose⟩ :=
        readInOrder_inOrder hserves h (lengthWanted title fields) 0 start .none behind rest
      rw [readRecord, skipSpace_blanks, List.cons_append, skipSpace_of_not_space (by decide),
        sequence_append Item.write_append, List.append_assoc, List.singleton_append]
      show closing closeList towardsListEnd (readInOrder _ d fields 0 start
        (sequence Item.write (0 == 0) _ _)) = _
      rw [Blanks.none, List.nil_append] at hread
      rw [hread]
      show (closeList u).map _ = _
      rw [hclose]
      rfl
  sound := by
    intro s v r hread
    unfold readRecord at hread
    split at hread
    · cases hread
    · next c u hskip =>
      obtain ⟨-, before, rfl⟩ := of_skipSpace hskip
      split_ifs at hread with hlist hobject
      · obtain ⟨w, hw, hclose⟩ := of_closing hread
        obtain ⟨parts, hparts, rfl, closed, behind, hclosed, rfl⟩ :=
          of_readInOrder hserves hw hclose
        refine ⟨before, _, _, ?_, .list behind hparts⟩
        rw [hclosed rfl, hlist, List.cons_append, sequence_append Item.write_append,
          List.append_assoc]
        rfl
      · obtain ⟨w, hw, hclose⟩ := of_closing hread
        obtain ⟨parts, x, rfl, hparts, rfl, hrow⟩ := of_readNamed hserves hw
        obtain rfl : x = r := Except.ok.inj hclose
        obtain ⟨closed, behind, hclosed, rfl⟩ := hrow
        refine ⟨before, _, _, ?_, .object behind hparts⟩
        rw [hclosed rfl, hobject, List.cons_append, sequence_append Member.write_append,
          List.append_assoc]
        rfl

/-! ## What one field decides -/

/-- The field of a record, by its name or by its place. -/
def Meaning.field? (m : Meaning) (i : Nat) (name : String) : Option Meaning :=
  match m with
  | .object _ => m.member? name
  | .list items => items[i]?
  | _ => none

/-- A part of a record that only the field of a name can change. -/
def OnlyBy (known : List (FieldShape σ)) (name : String) (get : σ → β) : Prop :=
  ∀ k ∈ known, k.name ≠ name → ∀ {m t f}, k.shape.takes m t f → ∀ v, get (f v) = get v

variable {get : σ → β} {name : String} {field : FieldShape σ}

theorem name_of_find (h : known.find? (·.name = name) = some field) : field.name = name := by
  simpa using List.find?_some h

theorem find_name (hnames : (known.map (·.name)).Nodup) (hmem : field ∈ known) :
    known.find? (·.name = field.name) = some field := by
  induction known with
  | nil => cases hmem
  | cons k known ih =>
    obtain ⟨hk, hnames⟩ := List.nodup_cons.1 hnames
    rcases List.mem_cons.1 hmem with rfl | hmem
    · exact List.find?_cons_of_pos (by simp)
    · have hne : k.name ≠ field.name := fun heq => hk (List.mem_map.2 ⟨field, hmem, heq.symm⟩)
      rw [List.find?_cons_of_neg (by simpa using hne)]
      exact ih hnames hmem

/-- What has been read is not changed any more. -/
theorem Filled.get_of_seen (hother : OnlyBy known name get) (hseen : name ∈ seen)
    {parts : List (Member × (σ → σ))} (h : Filled known seen parts) (v : σ) :
    get (applied (parts.map (·.2)) v) = get v := by
  induction h generalizing v with
  | nil => rfl
  | @known seen n k part f parts _ hfind hnew htakes _ ih =>
    have hne : k.name ≠ name := by
      rw [name_of_find hfind]
      rintro rfl
      exact hnew hseen
    exact (ih (List.mem_cons_of_mem _ hseen) (f v)).trans
      (hother k (List.mem_of_find?_eq_some hfind) hne htakes v)
  | other _ _ _ _ ih => exact ih hseen v

theorem member?_cons_of_text {n : String} {part : Member} (htext : part.name.text = some n)
    (hn : n ≠ name) (ms : List (Option String × Meaning)) :
    (Meaning.object (part.meaning :: ms)).member? name = (Meaning.object ms).member? name :=
  Meaning.member?_cons_ne (fun heq => hn (Option.some.inj (htext.symm.trans heq))) _ ms

theorem Filled.get_eq (hother : OnlyBy known name get)
    (hfind : known.find? (·.name = name) = some field) (hseen : name ∉ seen)
    {parts : List (Member × (σ → σ))} (h : Filled known seen parts) (v : σ) :
    ((Meaning.object ((parts.map (·.1)).map (·.meaning))).member? name = none ∧
        field.required = false ∧ get (applied (parts.map (·.2)) v) = get v) ∨
      ∃ m t f w, (Meaning.object ((parts.map (·.1)).map (·.meaning))).member? name = some m ∧
        field.shape.takes m t f ∧ get (applied (parts.map (·.2)) v) = get (f w) := by
  have hname := name_of_find hfind
  induction h generalizing v with
  | nil hall =>
    refine .inl ⟨rfl, eq_false_of_ne_true fun hrequired => hseen ?_, rfl⟩
    rw [← hname]
    exact hall field (List.mem_of_find?_eq_some hfind) hrequired
  | @known seen n k part f parts htext hk hnew htakes hparts ih =>
    by_cases hn : n = name
    · obtain rfl := hn
      obtain rfl : field = k := Option.some.inj (hfind.symm.trans hk)
      refine .inr ⟨part.value.meaning, part.value.text, f, v, ?_, htakes,
        hparts.get_of_seen hother List.mem_cons_self (f v)⟩
      show Meaning.member? (.object ((part.name.text, _) :: _)) n = _
      rw [htext, Meaning.member?_cons_self]
    · have hne : k.name ≠ name := by rwa [name_of_find hk]
      have hskip : get (f v) = get v := hother k (List.mem_of_find?_eq_some hk) hne htakes v
      have hlater := ih (by simp [hseen, Ne.symm hn]) (f v)
      rw [hskip] at hlater
      rw [← member?_cons_of_text htext hn] at hlater
      exact hlater
  | @other seen n part parts htext hnone _ _ ih =>
    have hn : n ≠ name := by
      rintro rfl
      rw [hfind] at hnone
      cases hnone
    have hlater := ih hseen v
    rw [← member?_cons_of_text htext hn] at hlater
    exact hlater

theorem InOrder.get_of_not_mem (hother : OnlyBy known name get)
    (hnot : ∀ k ∈ known, k.name ≠ name) {parts : List (Item × (σ → σ))}
    (h : InOrder known parts) (v : σ) : get (applied (parts.map (·.2)) v) = get v := by
  induction h generalizing v with
  | rest => rfl
  | @field k known part f parts htakes _ ih =>
    obtain ⟨hk, hknown⟩ := List.forall_mem_cons.1 hnot
    exact (ih (fun k hk => hother k (List.mem_cons_of_mem _ hk)) hknown (f v)).trans
      (hother k List.mem_cons_self hk htakes v)

theorem InOrder.get_eq (hother : OnlyBy known field.name get) (hnames : (known.map (·.name)).Nodup)
    {i : Nat} (hi : known[i]? = some field) {parts : List (Item × (σ → σ))}
    (h : InOrder known parts) (v : σ) :
    (((parts.map (·.1)).map (·.meaning))[i]? = none ∧
        field.required = false ∧ get (applied (parts.map (·.2)) v) = get v) ∨
      ∃ m t f w, ((parts.map (·.1)).map (·.meaning))[i]? = some m ∧
        field.shape.takes m t f ∧ get (applied (parts.map (·.2)) v) = get (f w) := by
  induction h generalizing i v with
  | rest hrest => exact .inl ⟨rfl, hrest field (List.mem_of_getElem? hi), rfl⟩
  | @field k known part f parts htakes hparts ih =>
    obtain ⟨hk, hnames⟩ := List.nodup_cons.1 hnames
    have hlater : OnlyBy known field.name get := fun k hk => hother k (List.mem_cons_of_mem _ hk)
    cases i with
    | zero =>
      obtain rfl : k = field := Option.some.inj hi
      refine .inr ⟨part.meaning, part.text, f, v, rfl, htakes, ?_⟩
      exact hparts.get_of_not_mem hlater
        (fun k' hk' heq => hk (List.mem_map.2 ⟨k', hk', heq⟩)) (f v)
    | succ i =>
      have hmem : field ∈ known := List.mem_of_getElem? hi
      have hne : k.name ≠ field.name := fun heq => hk (List.mem_map.2 ⟨field, hmem, heq.symm⟩)
      have hskip : get (f v) = get v := hother k List.mem_cons_self hne htakes v
      have hrest := ih hlater hnames hi (f v)
      rwa [hskip] at hrest

/-- What one field alone decides is what a document in its place says, or else as it was at the
start. -/
theorem RecordOf.get_eq {start v : σ} (h : RecordOf known start m t v)
    (hnames : (known.map (·.name)).Nodup) {i : Nat} (hi : known[i]? = some field)
    (hother : OnlyBy known field.name get) :
    (m.field? i field.name = none ∧ field.required = false ∧ get v = get start) ∨
      ∃ m' t' f w, m.field? i field.name = some m' ∧ field.shape.takes m' t' f ∧
        get v = get (f w) := by
  cases h with
  | object behind h =>
    exact h.get_eq hother (find_name hnames (List.mem_of_getElem? hi)) (List.not_mem_nil) start
  | list behind h => exact h.get_eq hother hnames hi start

theorem FieldShape.keeps {required : Bool} {L : Shape α} {set : α → σ → σ} {m : Meaning}
    {t : List Char} {f : σ → σ} (hset : ∀ x v, get (set x v) = get v)
    (h : (FieldShape.of name required L set).shape.takes m t f) (v : σ) :
    get (f v) = get v := by
  obtain ⟨x, -, rfl⟩ := h
  exact hset x v

theorem OnlyBy.left {k k' : FieldShape σ}
    (h : ∀ {m t f}, k'.shape.takes m t f → ∀ v, get (f v) = get v) :
    OnlyBy [k, k'] k.name get := by
  intro k₀ hk₀ hname
  rcases List.mem_pair.1 hk₀ with rfl | rfl
  · exact absurd rfl hname
  · exact h

theorem OnlyBy.right {k k' : FieldShape σ}
    (h : ∀ {m t f}, k.shape.takes m t f → ∀ v, get (f v) = get v) :
    OnlyBy [k, k'] k'.name get := by
  intro k₀ hk₀ hname
  rcases List.mem_pair.1 hk₀ with rfl | rfl
  · exact h
  · exact absurd rfl hname

/-- The same for a field that holds a document of a shape. -/
theorem RecordOf.get_of (get : σ → β) {start v : σ} {i : Nat} {required : Bool} {L : Shape α}
    {set : α → σ → σ} {value : α → β}
    (h : RecordOf known start m t v) (hi : known[i]? = some (.of name required L set))
    (hnames : (known.map (·.name)).Nodup) (hself : ∀ x w, get (set x w) = value x)
    (hother : OnlyBy known name get) :
    (m.field? i name = none ∧ required = false ∧ get v = get start) ∨
      ∃ m' t' x, m.field? i name = some m' ∧ L.takes m' t' x ∧ get v = value x := by
  rcases h.get_eq hnames hi hother with hnone | ⟨m', t', f, w, hm, ⟨x, hx, rfl⟩, hget⟩
  · exact .inl hnone
  · exact .inr ⟨m', t', x, hm, hx, hget.trans (hself x w)⟩

end PromptRunner.Json
