import PromptRunner.Proofs.Json.Written
import PromptRunner.Proofs.Settings.Document
import PromptRunner.Proofs.Text.Bytes

/-!
# Settings survive being written

Settings that are written to a file are read again as they were, field by field, whatever texts they
hold and with any timeout up to the greatest number of sixty-four bits. Between the two stands what
the document means (`Settings.meaning`). It is what the written text spells, in either form, and the
reader takes every text that spells it for the settings, so that neither the writer nor the reader
is looked into here.

A text that is missing is written as null, and one that is there but empty as an empty string.
A field that was not read would keep its standard value unnoticed, so the last step is an equation
of whole records.
-/

namespace PromptRunner

open PromptRunner.Json PromptRunner.Files PromptRunner.Text

/-! ## What a document means -/

/-- What is written of a text that may be missing. -/
def meaningOf? : Option String → Meaning
  | none => .null
  | some text => .string (some text)

theorem means_ofString? (text : Option String) : Means (.ofString? text) (meaningOf? text) := by
  cases text with
  | none => exact .null
  | some text => exact .string text

theorem isOptionalText_meaningOf? (text : Option String) : IsOptionalText (meaningOf? text) := by
  cases text with
  | none => exact .inl rfl
  | some text => exact .inr ⟨text, rfl⟩

theorem text?_meaningOf? (text : Option String) : (meaningOf? text).text? = text := by
  cases text <;> rfl

namespace Access

def meaning (a : Access) : Meaning :=
  .object [(some "api_key", meaningOf? a.key), (some "api_base", meaningOf? a.address)]

theorem means_document (a : Access) : Means a.document a.meaning :=
  @Means.object
    [ ("api_key", .ofString? a.key, meaningOf? a.key),
      ("api_base", .ofString? a.address, meaningOf? a.address) ]
    (by simp [means_ofString?])

theorem isRecord_meaning (a : Access) : IsRecord (·.isSome) known a.meaning :=
  ⟨_, rfl, by simp, by simp [known], by simp [known, isOptionalText_meaningOf?]⟩

theorem ofMeaning_meaning (a : Access) : ofMeaning a.meaning = a := by
  have hfields : ofMeaning a.meaning =
      ⟨(meaningOf? a.key).text?, (meaningOf? a.address).text?⟩ := rfl
  rw [hfields, text?_meaningOf?, text?_meaningOf?]

end Access

namespace Accesses

def meaning (a : Accesses) : Meaning :=
  .object
    [ (some "gemini", a.gemini.meaning), (some "openai", a.openAi.meaning),
      (some "anthropic", a.anthropic.meaning), (some "openrouter", a.openRouter.meaning) ]

theorem means_document (a : Accesses) : Means a.document a.meaning :=
  @Means.object
    [ ("gemini", a.gemini.document, a.gemini.meaning),
      ("openai", a.openAi.document, a.openAi.meaning),
      ("anthropic", a.anthropic.document, a.anthropic.meaning),
      ("openrouter", a.openRouter.document, a.openRouter.meaning) ]
    (by simp [Access.means_document])

theorem isRecord_meaning (a : Accesses) :
    IsRecord (·.isSome) (known (·.isSome)) a.meaning :=
  ⟨_, rfl, by simp, by simp [known], by simp [known, Access.isRecord_meaning]⟩

theorem ofMeaning_meaning (a : Accesses) : ofMeaning a.meaning = a := by
  have hfields : ofMeaning a.meaning =
      ⟨.ofMeaning a.gemini.meaning, .ofMeaning a.openAi.meaning, .ofMeaning a.anthropic.meaning,
        .ofMeaning a.openRouter.meaning⟩ := rfl
  simp only [hfields, Access.ofMeaning_meaning]

end Accesses

namespace Settings

variable {s : Settings} {t : Tree} {cwd place : Location} {path text : String} {f : RegularFile}

def meaning (s : Settings) : Meaning :=
  .object
    [ (some "model", .string (some s.model)), (some "python", .string (some s.interpreter)),
      (some "cache_dir", meaningOf? s.cacheDirectory),
      (some "temp_dir", meaningOf? s.temporaryDirectory),
      (some "request_timeout_secs", .natural s.timeout), (some "providers", s.accesses.meaning) ]

theorem means_document (s : Settings) : Means s.document s.meaning :=
  @Means.object
    [ ("model", .string s.model, .string (some s.model)),
      ("python", .string s.interpreter, .string (some s.interpreter)),
      ("cache_dir", .ofString? s.cacheDirectory, meaningOf? s.cacheDirectory),
      ("temp_dir", .ofString? s.temporaryDirectory, meaningOf? s.temporaryDirectory),
      ("request_timeout_secs", .number (.natural s.timeout), .natural s.timeout),
      ("providers", s.accesses.document, s.accesses.meaning) ]
    (by simp [means_ofString?, Accesses.means_document, Means.string, Means.natural])

theorem isSettings_meaning (h : s.timeout < Nat.pow 2 64) : IsSettings (·.isSome) s.meaning :=
  ⟨_, rfl, by simp, by simp [known],
    by simp [known, IsText, isOptionalText_meaningOf?, IsCount, h, Accesses.isRecord_meaning]⟩

theorem ofMeaning_meaning (s : Settings) : ofMeaning s.meaning = s := by
  have hfields : ofMeaning s.meaning =
      ⟨s.model, s.interpreter, (meaningOf? s.cacheDirectory).text?,
        (meaningOf? s.temporaryDirectory).text?, s.timeout, .ofMeaning s.accesses.meaning⟩ := rfl
  rw [hfields, text?_meaningOf?, text?_meaningOf?, Accesses.ofMeaning_meaning]

/-! ## What is read -/

/-- A text that spells what settings mean is parsed to them. -/
theorem parse_meaning (h : s.timeout < Nat.pow 2 64) {spelled : List Char}
    (hspells : Spells s.meaning spelled) : parse (String.ofList spelled) = .ok s := by
  have htext : (String.ofList spelled).toList = Blanks.none.1 ++ (spelled ++ Blanks.none.1) := by
    rw [String.toList_ofList]
    exact (List.append_nil spelled).symm
  rw [parse_spelled (isSettings_meaning h) hspells .none .none htext, ofMeaning_meaning]

theorem readText_of_stat {spelled : List Char} (hstat : stat t cwd path = .ok (place, .file f))
    (hcontent : f.content = encode spelled) :
    Files.readText t cwd path = .ok (String.ofList spelled) := by
  have hbytes : encode spelled = bytesOf (String.ofList spelled) := by
    rw [bytesOf, String.toList_ofList]
  simp only [Files.readText, readBytes, hstat, hcontent, hbytes, stringOf?_bytesOf]

/-- A file that holds written settings, in one line or over several, is read as the settings. -/
theorem written_settings_are_read_again (h : s.timeout < Nat.pow 2 64)
    (hstat : stat t cwd path = .ok (place, .file f))
    (hcontent : f.content = encode s.document.compact ∨ f.content = encode s.document.pretty) :
    ofFile t cwd path = .ok s := by
  have hmeans := means_document s
  obtain ⟨spelled, hspells, hheld⟩ :
      ∃ spelled, Spells s.meaning spelled ∧ f.content = encode spelled := by
    rcases hcontent with hcompact | hpretty
    · exact ⟨_, hmeans.spells_compact, hcompact⟩
    · exact ⟨_, hmeans.spells_prettyAt 0, hpretty⟩
  simp only [ofFile, readText_of_stat hstat hheld, parse_meaning h hspells]

/-- Settings with texts that are missing, empty or in need of escapes, and with the longest
timeout. -/
def unusual : Settings where
  model := ""
  interpreter := "\"py\\thon\"\n\x01"
  cacheDirectory := some ""
  temporaryDirectory := none
  timeout := 18446744073709551615
  accesses := ⟨⟨some " k ", none⟩, .unset, ⟨some "", some "ключ\t/"⟩, ⟨none, some "null"⟩⟩

def holding (spelled : List Char) : Tree :=
  ⟨[(["config.json"], .file ⟨encode spelled, 0, false⟩)]⟩

theorem unusual_settings_are_read_again :
    unusual.timeout < Nat.pow 2 64 ∧
      ofFile (holding unusual.document.compact) [] "config.json" = .ok unusual ∧
        ofFile (holding unusual.document.pretty) [] "config.json" = .ok unusual := by
  have htimeout : unusual.timeout < Nat.pow 2 64 := by decide
  have hstat : ∀ spelled, stat (holding spelled) [] "config.json" =
      .ok (["config.json"], .file ⟨encode spelled, 0, false⟩) := fun _ => rfl
  exact ⟨htimeout, written_settings_are_read_again htimeout (hstat _) (.inl rfl),
    written_settings_are_read_again htimeout (hstat _) (.inr rfl)⟩

end Settings

end PromptRunner
