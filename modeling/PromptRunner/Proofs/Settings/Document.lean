import PromptRunner.Proofs.Json.Reading
import PromptRunner.Settings.Document

/-!
# Settings in every document that holds them

Which documents hold settings is said on their meaning: an object, in it any of six names with what
each may hold, and below the name of the vendors objects of the same kind. Other names are not
looked at, however often they occur and whatever stands under them. `ofMeaning` is what such a
document says of the settings, with the standard value where it says nothing.

One thing is left open, and is a parameter of `IsSettings`: whether a name among the fields may be
one that is no text. The reader wants each name as a text before it knows whether it is known, and
so `parse_spelled` is about names that are texts.
-/

namespace PromptRunner

open PromptRunner.Json

/-! ## What a field may hold -/

def IsText (m : Meaning) : Prop := ∃ text, m = .string (some text)

def IsOptionalText (m : Meaning) : Prop := m = .null ∨ IsText m

/-- A whole number of sixty-four bits. -/
def IsCount (m : Meaning) : Prop := ∃ n < Nat.pow 2 64, m = .natural n

variable {m : Meaning} {s : List Char} {wanted : String} {depth : Nat}

theorem reads_isText (hm : IsText m) (hs : Spells m s) :
    Reads (readText wanted depth) s (m.text?.getD "") := by
  obtain ⟨text, rfl⟩ := hm
  exact reads_text hs

theorem reads_isOptionalText (hm : IsOptionalText m) (hs : Spells m s) :
    Reads (readOptional (readText wanted) depth) s m.text? := by
  rcases hm with rfl | ⟨text, rfl⟩
  · exact reads_null hs
  · exact reads_some_text hs

theorem reads_isCount (hm : IsCount m) (hs : Spells m s) :
    Reads (readNatural (Nat.pow 2 64) wanted depth) s (m.natural?.getD 0) := by
  obtain ⟨n, hn, rfl⟩ := hm
  exact reads_natural hs hn (Nat.le_sub_one_of_lt hn)

/-! ## Records in records -/

namespace Access

def known : List (Known Access) :=
  [ ⟨"api_key", IsOptionalText, fun m a => { a with key := m.text? }⟩,
    ⟨"api_base", IsOptionalText, fun m a => { a with address := m.text? }⟩ ]

/-- What a document says of an access. -/
def ofMeaning (m : Meaning) : Access := m.assigned known .unset

theorem serves (depth : Nat) : List.Forall₂ (Serves depth) fields known := by
  refine .cons ⟨rfl, rfl, fun m s hm hs => ?_⟩ (.cons ⟨rfl, rfl, fun m s hm hs => ?_⟩ .nil)
  · exact RecordField.of_reads (reads_isOptionalText hm hs)
  · exact RecordField.of_reads (reads_isOptionalText hm hs)

end Access

namespace Accesses

def known (allowed : Option String → Prop) : List (Known Accesses) :=
  [ ⟨"gemini", IsRecord allowed Access.known, fun m a => { a with gemini := .ofMeaning m }⟩,
    ⟨"openai", IsRecord allowed Access.known, fun m a => { a with openAi := .ofMeaning m }⟩,
    ⟨"anthropic", IsRecord allowed Access.known, fun m a => { a with anthropic := .ofMeaning m }⟩,
    ⟨"openrouter", IsRecord allowed Access.known,
      fun m a => { a with openRouter := .ofMeaning m }⟩ ]

/-- What a document says of the accesses. -/
def ofMeaning (m : Meaning) : Accesses := m.assigned (known (·.isSome)) .unset

theorem serves (depth : Nat) :
    List.Forall₂ (Serves (depth + 1)) fields (known (·.isSome)) := by
  have haccess : ∀ {m s}, IsRecord (·.isSome) Access.known m → Spells m s →
      Reads (Access.read (depth + 1)) s (.ofMeaning m) := fun hm hs =>
    reads_record (Access.serves depth) hm hs
  refine .cons ⟨rfl, rfl, fun m s hm hs => ?_⟩ (.cons ⟨rfl, rfl, fun m s hm hs => ?_⟩
    (.cons ⟨rfl, rfl, fun m s hm hs => ?_⟩ (.cons ⟨rfl, rfl, fun m s hm hs => ?_⟩ .nil)))
  all_goals exact RecordField.of_reads (haccess hm hs)

end Accesses

namespace Settings

def known (allowed : Option String → Prop) : List (Known Settings) :=
  [ ⟨"model", IsText, fun m s => { s with model := m.text?.getD "" }⟩,
    ⟨"python", IsText, fun m s => { s with interpreter := m.text?.getD "" }⟩,
    ⟨"cache_dir", IsOptionalText, fun m s => { s with cacheDirectory := m.text? }⟩,
    ⟨"temp_dir", IsOptionalText, fun m s => { s with temporaryDirectory := m.text? }⟩,
    ⟨"request_timeout_secs", IsCount, fun m s => { s with timeout := m.natural?.getD 0 }⟩,
    ⟨"providers", IsRecord allowed (Accesses.known allowed),
      fun m s => { s with accesses := .ofMeaning m }⟩ ]

/-- What a document says of the settings. -/
def ofMeaning (m : Meaning) : Settings := m.assigned (known (·.isSome)) .standard

theorem serves (depth : Nat) :
    List.Forall₂ (Serves (depth + 2)) fields (known (·.isSome)) := by
  refine .cons ⟨rfl, rfl, fun m s hm hs => ?_⟩ (.cons ⟨rfl, rfl, fun m s hm hs => ?_⟩
    (.cons ⟨rfl, rfl, fun m s hm hs => ?_⟩ (.cons ⟨rfl, rfl, fun m s hm hs => ?_⟩
      (.cons ⟨rfl, rfl, fun m s hm hs => ?_⟩ (.cons ⟨rfl, rfl, fun m s hm hs => ?_⟩ .nil)))))
  · exact RecordField.of_reads (reads_isText hm hs)
  · exact RecordField.of_reads (reads_isText hm hs)
  · exact RecordField.of_reads (reads_isOptionalText hm hs)
  · exact RecordField.of_reads (reads_isOptionalText hm hs)
  · exact RecordField.of_reads (reads_isCount hm hs)
  · exact RecordField.of_reads (reads_record (Accesses.serves depth) hm hs)

/-- A document that holds settings: any of the known fields, each once and with what it may hold,
and any others, with names of the allowed kind. -/
def IsSettings (allowed : Option String → Prop) (m : Meaning) : Prop :=
  IsRecord allowed (known allowed) m

/-- A text that spells such a document is parsed to what the document says. -/
theorem parse_spelled (hm : IsSettings (·.isSome) m) (hs : Spells m s) (before behind : Blanks)
    {text : String} (htext : text.toList = before.1 ++ (s ++ behind.1)) :
    parse text = .ok (ofMeaning m) := by
  have hread : Reads (read depthLimit) s (ofMeaning m) := reads_record (serves 124) hm hs
  rw [parse, htext]
  exact readWhole_spelled hread before behind

end Settings

end PromptRunner
