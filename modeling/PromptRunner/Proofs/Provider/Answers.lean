import PromptRunner.Proofs.Json.Records
import PromptRunner.Provider.Chat

/-!
# Which documents are answers

Two of the three formats have answers of a known shape, and here it is said which documents those
are: records of records, lists and numbers. That the readers take them and no others is put
together from what is known of each part.

The counts are looked at first. Where an answer has counts, they are the whole numbers that stand in
their two places, and the reader has refused what does not fit thirty-two bits.
-/

namespace PromptRunner.Provider

open PromptRunner.Json

variable {d : Nat} {m : Meaning} {t : List Char}

/-! ## Counts -/

def countFields (input output : String) : List (FieldShape Counts) :=
  [ .of input true (.naturals (Nat.pow 2 32)) fun v c => { c with input := v },
    .of output true (.naturals (Nat.pow 2 32)) fun v c => { c with output := v } ]

/-- The documents that are counts. -/
def CountsOf (input output : String) : Shape Counts :=
  .record (countFields input output) ⟨0, 0⟩

theorem readsExactly_counts (title input output : String) :
    ReadsExactly (readCounts title input output (d + 1)) (CountsOf input output) := by
  have hcount : ∀ wanted, ReadsExactly (readNatural (Nat.pow 2 32) wanted d)
      (.naturals (Nat.pow 2 32)) := fun _ => readsExactly_natural (by decide)
  exact readsExactly_record
    (.cons (servesExactly_of (hcount _)) (.cons (servesExactly_of (hcount _)) .nil)) title
    (⟨0, 0⟩ : Counts)

/-- Counts are the whole numbers that stand in their places. -/
theorem CountsOf.given {input output : String} {c : Counts} (hne : input ≠ output)
    (h : (CountsOf input output).takes m t c) :
    m.field? 0 input = some (.natural c.input) ∧ m.field? 1 output = some (.natural c.output) := by
  have hnames : ((countFields input output).map (·.name)).Nodup := by
    simp [countFields, FieldShape.of, hne]
  constructor
  · rcases RecordOf.get_of Counts.input (i := 0) h rfl hnames (fun _ _ => rfl)
      (.left (FieldShape.keeps fun _ _ => rfl)) with
      ⟨-, hoptional, -⟩ | ⟨m', t', n, hm, hn, hget⟩
    · cases hoptional
    · rw [hm, hn.1, hget]
  · rcases RecordOf.get_of Counts.output (i := 1) h rfl hnames (fun _ _ => rfl)
      (.right (FieldShape.keeps fun _ _ => rfl)) with
      ⟨-, hoptional, -⟩ | ⟨m', t', n, hm, hn, hget⟩
    · cases hoptional
    · rw [hm, hn.1, hget]

/-- Where a record has counts in its second field, they are those that stand there. -/
theorem counts_given {σ : Type} {start v : σ}
    {input output : String} {first : FieldShape σ} {set : Option Counts → σ → σ}
    (get : σ → Option Counts) (hfirst : first.name ≠ "usage")
    (h : (Shape.record [first, .of "usage" false (CountsOf input output).nullable set]
      start).takes m t v)
    (hself : ∀ x w, get (set x w) = x)
    (hkept : ∀ {m t f}, first.shape.takes m t f → ∀ v, get (f v) = get v)
    (hstart : get start = none) (hne : input ≠ output) {c : Counts} (hc : get v = some c) :
    ∃ u, m.field? 1 "usage" = some u ∧ u.field? 0 input = some (.natural c.input) ∧
      u.field? 1 output = some (.natural c.output) := by
  have hnames : ([first.name, "usage"]).Nodup := by simp [hfirst]
  rcases RecordOf.get_of get (i := 1) h rfl hnames hself (.right hkept) with
    ⟨-, -, hget⟩ | ⟨u, t', x, hu, hx, hget⟩
  · rw [hc, hstart] at hget
    cases hget
  · rw [hc] at hget
    subst hget
    exact ⟨u, hu, CountsOf.given hne hx.2⟩

/-! ## Answers of one choice out of several -/

namespace ChatCompletions

def choiceFields : List (FieldShape (Option String)) :=
  [.of "message" true
    (.record [.of "content" false (Shape.nullable .texts) fun v _ => v] none) fun v _ => v]

def answerFields : List (FieldShape Answer) :=
  [ .of "choices" true (Shape.list (.record choiceFields none))
      fun v a => { a with choices := v },
    .of "usage" false (CountsOf "prompt_tokens" "completion_tokens").nullable
      fun v a => { a with counts := v } ]

/-- The documents that are answers. -/
def Answers : Shape Answer := .record answerFields ⟨[], none⟩

theorem readsExactly_choice : ReadsExactly (readChoice (d + 2)) (.record choiceFields none) := by
  have hmessage : ReadsExactly (readMessage (d + 1))
      (.record [.of "content" false (Shape.nullable .texts) fun v _ => v] none) :=
    readsExactly_record
      (.cons (servesExactly_of (readsExactly_optional readsExactly_text)) .nil) _ none
  exact readsExactly_record (.cons (servesExactly_of hmessage) .nil) _ none

theorem readsExactly_answer : ReadsExactly (readAnswer (d + 4)) Answers :=
  readsExactly_record
    (.cons (servesExactly_of (readsExactly_list readsExactly_choice))
      (.cons (servesExactly_of (readsExactly_optional (readsExactly_counts _ _ _))) .nil)) _ _

end ChatCompletions

/-! ## Answers of blocks -/

namespace Messages

/-- The documents that are blocks. -/
def Blocks (d : Nat) : Shape Block where
  takes m t b := ∃ v, Denotes d m t v ∧ blockOf? v = some b
  spells := by
    rintro m t b ⟨v, hv, -⟩
    exact hv.spells

theorem readsExactly_block : ReadsExactly (readBlock d) (Blocks d) where
  reads := by
    rintro m t b ⟨v, hv, hb⟩
    intro before rest hrest
    simp only [readBlock, hv.reads before rest hrest, hb]
  sound := by
    intro s b r h
    unfold readBlock at h
    split at h
    · cases h
    · next v w hv =>
      split at h
      · next b' hb =>
        cases h
        obtain ⟨before, m, t, hs, ht⟩ := of_readValue hv
        exact ⟨before, m, t, hs, v, ht, hb⟩
      · cases h

def answerFields (d : Nat) : List (FieldShape Answer) :=
  [ .of "content" true (Blocks d).list fun v a => { a with blocks := v },
    .of "usage" false (CountsOf "input_tokens" "output_tokens").nullable
      fun v a => { a with counts := v } ]

/-- The documents that are answers. -/
def Answers (d : Nat) : Shape Answer := .record (answerFields d) ⟨[], none⟩

theorem readsExactly_answer : ReadsExactly (readAnswer (d + 2)) (Answers d) :=
  readsExactly_record
    (.cons (servesExactly_of (readsExactly_list readsExactly_block))
      (.cons (servesExactly_of (readsExactly_optional (readsExactly_counts _ _ _))) .nil)) _ _

end Messages

end PromptRunner.Provider
