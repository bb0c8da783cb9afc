import PromptRunner.Proofs.Json.Tokens

/-!
# What is written is a document

A document is written without blanks or over several lines, and both are documents of the grammar
with the same meaning. `Means v m` says, without a text, what a value means; numbers other than
natural ones are left out. Both ways of writing follow one induction over it, which rests on one
lemma for a row of items and one for a row of members: these know nothing of the writers but the
blanks that they put in front of an item or of a name, and behind a colon.
-/

namespace PromptRunner.Json

variable {v : Value} {m : Meaning}

/-- A value without numbers, other than natural ones, and what it means. -/
inductive Means : Value → Meaning → Prop where
  | null : Means .null .null
  | boolean (b : Bool) : Means (.boolean b) (.boolean b)
  | natural (n : Nat) : Means (.number (.natural n)) (.natural n)
  | string (s : String) : Means (.string s) (.string (some s))
  | list {items : List (Value × Meaning)} (h : ∀ i ∈ items, Means i.1 i.2) :
      Means (.list (items.map (·.1))) (.list (items.map (·.2)))
  | object {members : List (String × Value × Meaning)} (h : ∀ m ∈ members, Means m.2.1 m.2.2) :
      Means (.object (members.map fun m => (m.1, m.2.1)))
        (.object (members.map fun m => (some m.1, m.2.2)))

/-! ## Strings and numbers -/

theorem spellsText_escaped (s : List Char) : SpellsText s (escaped s) := by
  obtain ⟨body, hbody, hspells⟩ := of_readString (readString_escaped s [])
  rwa [List.append_cancel_right hbody]

/-- A text as it is written. -/
def Marked.escaped (s : String) : Marked := .spelled s.toList (Json.escaped s.toList)
  (spellsText_escaped s.toList)

theorem Marked.escaped_text (s : String) : (Marked.escaped s).text = some s :=
  congrArg some String.ofList_toList

theorem Marked.escaped_write (s : String) (r : List Char) :
    (Marked.escaped s).write r = stringText s ++ r := by
  simp [Marked.write, stringText, Marked.escaped, Marked.spelled]

theorem spells_string (s : String) : Spells (.string (some s)) (stringText s) := by
  have hspells := Spells.string (.escaped s)
  rwa [Marked.escaped_write, Marked.escaped_text, List.append_nil] at hspells

theorem spells_natural (n : Nat) : Spells (.natural n) (Nat.toDigits 10 n) := by
  have hspells := Spells.natural (whole_toDigits n)
  rwa [Nat.ofDigitChars_ten_toDigits] at hspells

/-! ## Rows -/

/-- Items one after the other, with the same blanks in front of each. -/
structure WritesItems (line : Blanks) (text : Value → List Char)
    (row : Bool → List Value → List Char) : Prop where
  nil : ∀ first, row first [] = []
  cons : ∀ first v vs,
    row first (v :: vs) = (if first then [] else [',']) ++ line.1 ++ text v ++ row false vs

/-- Members one after the other, with the same blanks in front of each name and each value. -/
structure WritesMembers (line gap : Blanks) (text : Value → List Char)
    (row : Bool → List (String × Value) → List Char) : Prop where
  nil : ∀ first, row first [] = []
  cons : ∀ first name v ms, row first ((name, v) :: ms) =
    (if first then [] else [',']) ++ line.1 ++ stringText name ++ ':' :: gap.1 ++ text v ++
      row false ms

variable {line gap : Blanks} {text : Value → List Char}

theorem WritesItems.eq_sequence {row : Bool → List Value → List Char}
    (h : WritesItems line text row) (items : List (Value × Meaning)) (first : Bool)
    (rest : List Char) : row first (items.map (·.1)) ++ rest =
      sequence Item.write first (items.map fun i => ⟨line, i.2, text i.1, .none⟩) rest := by
  induction items generalizing first with
  | nil => cases first <;> simp [h.nil, sequence]
  | cons i items ih =>
    rw [List.map_cons, List.map_cons, h.cons, List.append_assoc, ih]
    cases first <;> simp [sequence, Item.write, Blanks.none]

theorem WritesMembers.eq_sequence {row : Bool → List (String × Value) → List Char}
    (h : WritesMembers line gap text row) (members : List (String × Value × Meaning))
    (first : Bool) (rest : List Char) : row first (members.map fun m => (m.1, m.2.1)) ++ rest =
      sequence Member.write first
        (members.map fun m => ⟨line, .escaped m.1, .none, gap, m.2.2, text m.2.1, .none⟩) rest := by
  induction members generalizing first with
  | nil => cases first <;> simp [h.nil, sequence]
  | cons m members ih =>
    rw [List.map_cons, List.map_cons, h.cons, List.append_assoc, ih]
    cases first <;>
      simp [sequence, Member.write, Member.tail, Item.write, Blanks.none, Marked.escaped_write]

theorem WritesItems.spells {row : Bool → List Value → List Char} (h : WritesItems line text row)
    {items : List (Value × Meaning)} (hitems : ∀ i ∈ items, Spells i.2 (text i.1))
    (behind : Blanks) : Spells (.list (items.map (·.2)))
      ('[' :: (row true (items.map (·.1)) ++ (behind.1 ++ [']']))) := by
  have hmeaning : (items.map fun i => Item.mk line i.2 (text i.1) .none).map (·.meaning) =
      items.map (·.2) := by
    rw [List.map_map]
    rfl
  rw [h.eq_sequence, ← hmeaning]
  refine .list behind fun i hi => ?_
  obtain ⟨i, hmem, rfl⟩ := List.mem_map.1 hi
  exact hitems i hmem

theorem WritesMembers.spells {row : Bool → List (String × Value) → List Char}
    (h : WritesMembers line gap text row) {members : List (String × Value × Meaning)}
    (hmembers : ∀ m ∈ members, Spells m.2.2 (text m.2.1)) (behind : Blanks) :
    Spells (.object (members.map fun m => (some m.1, m.2.2)))
      ('\x7b' :: (row true (members.map fun m => (m.1, m.2.1)) ++ (behind.1 ++ ['\x7d']))) := by
  have hmeaning : (members.map fun m => Member.mk line (.escaped m.1) .none
      ⟨gap, m.2.2, text m.2.1, .none⟩).map (·.meaning) =
        members.map fun m => (some m.1, m.2.2) := by
    simp [Member.meaning, Marked.escaped_text]
  rw [h.eq_sequence, ← hmeaning]
  refine .object behind fun m hm => ?_
  obtain ⟨m, hmem, rfl⟩ := List.mem_map.1 hm
  exact hmembers m hmem

/-! ## Both ways of writing -/

theorem writesItems_compact : WritesItems .none Value.compact compactItems :=
  ⟨fun _ => by rw [compactItems], fun first v vs => by simp [compactItems, Blanks.none]⟩

theorem writesMembers_compact : WritesMembers .none .none Value.compact compactMembers :=
  ⟨fun _ => by rw [compactMembers], fun first name v ms => by simp [compactMembers, Blanks.none]⟩

theorem writesItems_pretty (level : Nat) :
    WritesItems (.newLine level) (Value.prettyAt level) (prettyItems level) :=
  ⟨fun _ => by rw [prettyItems], fun first v vs => by simp [prettyItems, Blanks.newLine]⟩

theorem writesMembers_pretty (level : Nat) :
    WritesMembers (.newLine level) .gap (Value.prettyAt level) (prettyMembers level) :=
  ⟨fun _ => by rw [prettyMembers],
    fun first name v ms => by simp [prettyMembers, Blanks.newLine, Blanks.gap]⟩

/-- A value in one line is a document that means what the value means. -/
theorem Means.spells_compact (h : Means v m) : Spells m v.compact := by
  induction h with
  | null => exact .null
  | boolean b => cases b <;> constructor
  | natural n => exact spells_natural n
  | string s => exact spells_string s
  | list _ ih => exact writesItems_compact.spells ih .none
  | object _ ih => exact writesMembers_compact.spells ih .none

/-- A value over several lines is one too, however far it is indented. -/
theorem Means.spells_prettyAt (h : Means v m) (level : Nat) : Spells m (v.prettyAt level) := by
  induction h generalizing level with
  | null => exact .null
  | boolean b => cases b <;> constructor
  | natural n => exact spells_natural n
  | string s => exact spells_string s
  | @list items _ ih =>
    -- without items the closing bracket gets no line of its own
    cases items with
    | nil => exact @Spells.list [] .none nofun
    | cons i items =>
      have hspells := (writesItems_pretty (level + 1)).spells
        (fun i hi => ih i hi (level + 1)) (.newLine level)
      simpa [Value.prettyAt, Blanks.newLine] using hspells
  | @object members _ ih =>
    cases members with
    | nil => exact @Spells.object [] .none nofun
    | cons m members =>
      have hspells := (writesMembers_pretty (level + 1)).spells
        (fun m hm => ih m hm (level + 1)) (.newLine level)
      simpa [Value.prettyAt, Blanks.newLine] using hspells

end PromptRunner.Json
