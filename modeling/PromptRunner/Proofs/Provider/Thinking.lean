import Mathlib.Logic.Relation
import PromptRunner.Proofs.Json.Compact
import PromptRunner.Provider.Wire

/-!
# What is thought aloud is no part of an answer

An answer of the first format lists parts, and some of them are only thought aloud. The reader goes
over the list twice: once for the texts that are not thoughts, and again for all of them if that
gave none. Here it is said which parts count (`isFinal`: those with a text that are not marked as a
thought), and that nothing else does as long as one of them is there. Asides may then be put in,
taken out and changed at will (`Retouch`): the parts that count stay the same, in the same order,
and the answer with them.

Where the list lies in a document, and whether it is there at all, is read with `Value.member?`,
which knows the difference between nothing and null; the reader itself looks into whatever it finds
and takes nothing for null.
-/

namespace PromptRunner.Provider.Gemini

open PromptRunner.Json

variable {answer answer' p : Value} {parts parts' : List Value}

/-! ## Parts -/

/-- The parts of the first candidate, if the way to them is there and they are a list. -/
def parts? (answer : Value) : Option (List Value) := do
  let candidates ← (← answer.member? "candidates").items?
  let content ← (← candidates[0]?).member? "content"
  (← content.member? "parts").items?

def textOf? (p : Value) : Option String := (p.member? "text").bind Value.string?

def isThought (p : Value) : Bool :=
  match p.member? "thought" with
  | some (.boolean b) => b
  | _ => false

/-- Whether a part is one of those that the answer is made of. -/
def isFinal (p : Value) : Bool := (textOf? p).isSome && !isThought p

theorem string?_get (p : Value) : (p.get "text").string? = textOf? p := by
  rw [Value.get_eq, Value.string?_getD, textOf?]

theorem isTrue_get (p : Value) : (p.get "thought").isTrue = isThought p := by
  rw [Value.get_eq, isThought]
  cases p.member? "thought" with
  | none => rfl
  | some v => cases v <;> rfl

theorem items?_get (answer : Value) :
    ((((answer.get "candidates").item 0).get "content").get "parts").items? = parts? answer := by
  simp only [Value.get_eq, Value.item_eq, Value.member?_getD, Value.items?_getD, parts?,
    Option.bind_eq_bind, Option.bind_assoc]

/-! ## Texts -/

theorem texts_eq (parts : List Value) : texts parts = parts.filterMap textOf? := by
  simp only [texts, string?_get]

/-- The texts that are no thoughts are the texts of the parts that count. -/
theorem texts_of_no_thought (parts : List Value) :
    texts (parts.filter fun p => !(p.get "thought").isTrue) =
      (parts.filter isFinal).filterMap textOf? := by
  rw [texts_eq, List.filterMap_filter, List.filterMap_filter]
  refine List.filterMap_congr fun p _ => ?_
  rw [isTrue_get, isFinal]
  cases textOf? p <;> cases isThought p <;> rfl

theorem texts_eq_nil_iff : texts parts = [] ↔ ∀ p ∈ parts, textOf? p = none := by
  rw [texts_eq, List.filterMap_eq_nil_iff]

theorem finals_eq_nil_iff :
    (parts.filter isFinal).filterMap textOf? = [] ↔ parts.any isFinal = false := by
  rw [List.filterMap_eq_nil_iff, List.any_eq_false]
  constructor
  · intro h p hp hfinal
    have hnone := h p (List.mem_filter.2 ⟨hp, hfinal⟩)
    rw [isFinal, hnone] at hfinal
    exact absurd hfinal (by simp)
  · intro h p hp
    obtain ⟨hp, hfinal⟩ := List.mem_filter.1 hp
    exact absurd hfinal (h p hp)

theorem joined?_of_ne_nil {ts : List String} (h : ts ≠ []) : joined? ts = some (String.join ts) :=
  if_neg (mt List.isEmpty_iff.1 h)

/-! ## Answers -/

theorem answerText?_of_no_parts (h : parts? answer = none) : answerText? answer = none := by
  rw [answerText?, items?_get, h]

theorem answerText?_of_final (h : parts? answer = some parts) (hfinal : parts.any isFinal = true) :
    answerText? answer = some (String.join ((parts.filter isFinal).filterMap textOf?)) := by
  have hne : (parts.filter isFinal).filterMap textOf? ≠ [] := by
    rw [Ne, finals_eq_nil_iff, hfinal]
    decide
  simp only [answerText?, items?_get, h, texts_of_no_thought, joined?_of_ne_nil hne]

theorem answerText?_of_no_final (h : parts? answer = some parts)
    (hfinal : parts.any isFinal = false) : answerText? answer = joined? (texts parts) := by
  simp only [answerText?, items?_get, h, texts_of_no_thought, finals_eq_nil_iff.2 hfinal]
  rfl

theorem answerText?_eq_none_iff :
    answerText? answer = none ↔
      ∀ parts, parts? answer = some parts → ∀ p ∈ parts, textOf? p = none := by
  cases h : parts? answer with
  | none => exact iff_of_true (answerText?_of_no_parts h) nofun
  | some parts =>
    have hall : (∀ parts', some parts = some parts' → ∀ p ∈ parts', textOf? p = none) ↔
        ∀ p ∈ parts, textOf? p = none :=
      ⟨fun hparts => hparts parts rfl, fun hparts parts' heq => Option.some.inj heq ▸ hparts⟩
    rw [hall]
    by_cases hfinal : parts.any isFinal = true
    · -- a part that counts has a text, and an answer of empty texts is an answer still
      rw [answerText?_of_final h hfinal]
      refine iff_of_false (Option.some_ne_none _) fun hnone => ?_
      obtain ⟨p, hp, hp'⟩ := List.any_eq_true.1 hfinal
      rw [isFinal, hnone p hp] at hp'
      exact absurd hp' (by simp)
    · rw [answerText?_of_no_final h (eq_false_of_ne_true hfinal), ← texts_eq_nil_iff]
      by_cases hnil : texts parts = []
      · rw [hnil]
        exact iff_of_true rfl rfl
      · rw [joined?_of_ne_nil hnil]
        exact iff_of_false (Option.some_ne_none _) hnil

/-! ## Asides -/

/-- Two lists of parts that differ in one part that does not count. -/
inductive Retouch : List Value → List Value → Prop where
  | insert {before behind : List Value} {p : Value} (hp : isFinal p = false) :
      Retouch (before ++ behind) (before ++ p :: behind)
  | delete {before behind : List Value} {p : Value} (hp : isFinal p = false) :
      Retouch (before ++ p :: behind) (before ++ behind)
  | change {before behind : List Value} {p p' : Value} (hp : isFinal p = false)
      (hp' : isFinal p' = false) : Retouch (before ++ p :: behind) (before ++ p' :: behind)

theorem Retouch.filter_eq (h : Retouch parts parts') :
    parts'.filter isFinal = parts.filter isFinal := by
  cases h with
  | insert hp => rw [List.filter_append, List.filter_append, List.filter_cons_of_neg (by simp [hp])]
  | delete hp => rw [List.filter_append, List.filter_append, List.filter_cons_of_neg (by simp [hp])]
  | change hp hp' =>
    rw [List.filter_append, List.filter_append, List.filter_cons_of_neg (by simp [hp']),
      List.filter_cons_of_neg (by simp [hp])]

/-- However often parts that do not count are changed, those that do stay. -/
theorem filter_eq_of_retouched (h : Relation.ReflTransGen Retouch parts parts') :
    parts'.filter isFinal = parts.filter isFinal := by
  induction h with
  | refl => rfl
  | tail _ hlast ih => exact hlast.filter_eq.trans ih

theorem answerText?_of_retouched (h : parts? answer = some parts)
    (hfinal : parts.any isFinal = true) (h' : parts? answer' = some parts')
    (hretouched : Relation.ReflTransGen Retouch parts parts') :
    answerText? answer' = answerText? answer := by
  have hsame := filter_eq_of_retouched hretouched
  have hfinal' : parts'.any isFinal = true := by
    obtain ⟨p, hp, hcounts⟩ := List.any_eq_true.1 hfinal
    have hmem : p ∈ parts'.filter isFinal := hsame ▸ List.mem_filter.2 ⟨hp, hcounts⟩
    exact List.any_eq_true.2 ⟨p, (List.mem_filter.1 hmem).1, hcounts⟩
  rw [answerText?_of_final h hfinal, answerText?_of_final h' hfinal', hsame]

/-- There is no answer exactly where no part has a text. If a part counts, the answer is made of
those that do, and of nothing that may be put around them; otherwise it is made of all texts. -/
theorem answer_leaves_out_thoughts (answer : Value) :
    (answerText? answer = none ↔
      ∀ parts, parts? answer = some parts → ∀ p ∈ parts, textOf? p = none) ∧
    ∀ parts, parts? answer = some parts →
      (parts.any isFinal = true →
        answerText? answer = some (String.join ((parts.filter isFinal).filterMap textOf?)) ∧
        ∀ answer' parts', parts? answer' = some parts' →
          Relation.ReflTransGen Retouch parts parts' →
            answerText? answer' = answerText? answer) ∧
      (parts.any isFinal = false → (∃ p ∈ parts, textOf? p ≠ none) →
        answerText? answer = some (String.join (parts.filterMap textOf?))) := by
  refine ⟨answerText?_eq_none_iff, fun parts h => ⟨fun hfinal => ⟨?_, ?_⟩, ?_⟩⟩
  · exact answerText?_of_final h hfinal
  · intro answer' parts' h' hretouched
    exact answerText?_of_retouched h hfinal h' hretouched
  · rintro hfinal ⟨p, hp, htext⟩
    have hne : texts parts ≠ [] := fun hnil => htext (texts_eq_nil_iff.1 hnil p hp)
    rw [answerText?_of_no_final h hfinal, joined?_of_ne_nil hne, texts_eq]

/-- An answer of some parts, as it is sent. -/
def answerOf (parts : List Value) : Value :=
  .object [("candidates", .list [.object [("content", .object [("parts", .list parts)])]])]

/-- A part that is thought aloud. -/
def thoughtOf (text : String) : Value :=
  .object [("text", .string text), ("thought", .boolean true)]

def saying (text : String) : Value := .object [("text", .string text)]

/-- A thought is passed over before the answer and behind it, and it is read if it is alone. -/
theorem a_thought_is_passed_over :
    answerText? (answerOf [thoughtOf "hm", saying "fn ", saying "", saying "main"]) =
        some "fn main" ∧
      answerText? (answerOf [saying "fn ", saying "", saying "main", thoughtOf "so"]) =
        some "fn main" ∧
      answerText? (answerOf [thoughtOf "hm"]) = some "hm" ∧
      answerText? (answerOf []) = none := by
  have hparts : ∀ parts, parts? (answerOf parts) = some parts := fun _ => rfl
  have hfirst := ((answer_leaves_out_thoughts
    (answerOf [thoughtOf "hm", saying "fn ", saying "", saying "main"])).2 _ (hparts _)).1
      (by decide)
  refine ⟨hfirst.1, ?_, ?_, ?_⟩
  · let final := [saying "fn ", saying "", saying "main"]
    have hdelete : Retouch (thoughtOf "hm" :: final) final :=
      @Retouch.delete [] final (thoughtOf "hm") (by decide)
    have hinsert : Retouch final (final ++ [thoughtOf "so"]) :=
      @Retouch.insert final [] (thoughtOf "so") (by decide)
    exact (hfirst.2 _ _ (hparts _) (.tail (.single hdelete) hinsert)).trans hfirst.1
  · exact ((answer_leaves_out_thoughts (answerOf [thoughtOf "hm"])).2 _ (hparts _)).2
      (by decide) ⟨thoughtOf "hm", List.mem_singleton.2 rfl, by decide⟩
  · exact (answer_leaves_out_thoughts (answerOf [])).1.2 (by rintro _ ⟨⟩ _ ⟨⟩)

end PromptRunner.Provider.Gemini
