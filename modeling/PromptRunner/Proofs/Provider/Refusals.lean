import PromptRunner.Proofs.Generation
import PromptRunner.Proofs.Json.Compact
import PromptRunner.Proofs.Json.Exactly
import PromptRunner.Provider.Chat

/-!
# A status decides the kind of a failure

Three formats have a way each to say what went wrong, and they come to the same. What kind of
failure a status is (`kindOf`) is said without looking at the answer, and what the failure says is
one text around a message. The message is what the body says in its place if it is a document, and
else the body (`SaysWhy`); which bodies are documents is said by the grammar with its limits, so
that a number past every magnitude or a bracket too many makes the whole body the message.

A success is an answer or a failure of the provider, which is the kind that its status would be. So
the kind that a step passes on is that of the status, whichever vendor was asked.
-/

namespace PromptRunner.Provider

open PromptRunner.Json PromptRunner.Web

variable {p : Provider} {q : Query} {r : WebRequest} {network : Network} {status : Nat}
  {body : Option Text.Bytes} {text : List Char} {m m' : String}

/-! ## Messages -/

/-- The message that a document has in its place, where the last of several members of one name is
the one that counts. -/
def messageIn (v : Value) : Option String :=
  ((v.member? "error").bind (·.member? "message")).bind Value.string?

/-- The message of a body: what a document says in its place, and the body where none does. -/
def SaysWhy (text : List Char) (m : String) : Prop :=
  (∃ meaning v, Written (.values depthLimit) text meaning v ∧ messageIn v = some m) ∨
    (¬∃ meaning v m', Written (.values depthLimit) text meaning v ∧ messageIn v = some m') ∧
      m = String.ofList text

theorem refusalText_of_written {meaning : Meaning} {v : Value}
    (h : Written (.values depthLimit) text meaning v) (hm : messageIn v = some m) :
    refusalText (String.ofList text) = m := by
  have hparse : Value.parse (String.ofList text) = .ok v := by
    rw [parse_eq_ok_iff, String.toList_ofList]
    exact ⟨meaning, h⟩
  have hget : ((v.get "error").get "message").string? = some m := by
    rw [Value.get_eq, Value.get_eq, Value.member?_getD, Value.string?_getD]
    exact hm
  simp only [refusalText, hparse, hget]

theorem saysWhy_refusalText (text : List Char) :
    SaysWhy text (refusalText (String.ofList text)) := by
  by_cases h : ∃ meaning v m', Written (.values depthLimit) text meaning v ∧ messageIn v = some m'
  · obtain ⟨meaning, v, m, hv, hm⟩ := h
    exact .inl ⟨meaning, v, hv, by rw [hm, refusalText_of_written hv hm]⟩
  · refine .inr ⟨h, ?_⟩
    unfold refusalText
    split
    · rfl
    · next v hparse =>
      rw [parse_eq_ok_iff, String.toList_ofList] at hparse
      obtain ⟨meaning, hv⟩ := hparse
      split
      · next m hm =>
        rw [Value.get_eq, Value.get_eq, Value.member?_getD, Value.string?_getD] at hm
        exact absurd ⟨meaning, v, m, hv, hm⟩ h
      · rfl

theorem SaysWhy.eq_refusalText (h : SaysWhy text m) : m = refusalText (String.ofList text) := by
  rcases h with ⟨meaning, v, hv, hm⟩ | ⟨hnone, rfl⟩
  · exact (refusalText_of_written hv hm).symm
  · rcases saysWhy_refusalText text with ⟨meaning, v, hv, hm⟩ | ⟨-, heq⟩
    · exact absurd ⟨meaning, v, _, hv, hm⟩ hnone
    · exact heq.symm

/-! ## Kinds -/

/-- The kind of failure that a status is. -/
def kindOf (status : Nat) (text : String) : Failure :=
  if status = 401 ∨ status = 403 then .unauthorized text
  else if status = 429 then .rateLimited text
  else .provider text

theorem refusal_eq (status : Nat) (message : String) :
    refusal status message = kindOf status ("HTTP " ++ toString status ++ ": " ++ message) := by
  simp only [refusal, kindOf, Bool.or_eq_true, decide_eq_true_eq]

theorem kindOf_success (h : isSuccess status = true) (text : String) :
    kindOf status text = .provider text := by
  simp only [isSuccess, Bool.and_eq_true, decide_eq_true_eq] at h
  rw [kindOf, if_neg (by omega), if_neg (by omega)]

theorem emptyAnswer_eq (p : Provider) : ∃ text, p.emptyAnswer = .provider text := by
  unfold emptyAnswer
  cases p.vendor <;> exact ⟨_, rfl⟩

theorem conclude_success (h : isSuccess status = true) :
    (∃ c, p.conclude r (.answered status body) = .ok c) ∨
      ∃ text, p.conclude r (.answered status body) = .error (.provider text) := by
  simp only [conclude, h, if_true]
  split
  · exact .inr ⟨_, rfl⟩
  · obtain ⟨text, htext⟩ := p.emptyAnswer_eq
    exact .inr ⟨text, congrArg Except.error htext⟩
  · exact .inl ⟨_, rfl⟩

theorem conclude_refused (h : isSuccess status = false) :
    p.conclude r (.answered status body) =
      .error (kindOf status ("HTTP " ++ toString status ++ ": " ++ (p.vendor.label ++
        " API error: " ++ refusalText (String.ofList (Text.decodeLossy (body.getD [])))))) := by
  simp only [conclude, h, Bool.false_eq_true, if_false, refusal_eq]

/-- A step fails only with what was asked of the provider, and passes on what the provider says. -/
theorem generate_eq_error {ask : Ask} {s : Surroundings} {t : Files.Tree} {directory : String}
    {d : Demand} {f : Failure} (h : (Generation.generate ask s t directory d).result = .error f) :
    ∃ e, f = .generation e ∧ ask (Generation.query d.model d.prompt) = .error e := by
  have hasking : ∀ {f}, Generation.asking ask d = .error f →
      ∃ e, f = .generation e ∧ ask (Generation.query d.model d.prompt) = .error e := by
    intro f h
    unfold Generation.asking at h
    split at h
    · next e he =>
      cases h
      exact ⟨e, rfl, he⟩
    · cases h
  cases huses : Generation.usesCache d with
  | false =>
    rw [Generation.generate_without_cache huses] at h
    exact hasking h
  | true =>
    cases hlookup : (Cache.lookup t s.cwd s.now d.limit
        (Cache.filePath directory d.model d.prompt)).1 with
    | some answer =>
      rw [Generation.generate_hit huses hlookup] at h
      cases h
    | none =>
      rw [Generation.generate_miss huses hlookup] at h
      exact hasking h

/-- What comes of an answer with a status hangs on the status. Without success it is a failure of
the kind of the status, around the one message that the body holds; with success it is an answer or
a failure of the provider; and a step passes on a failure of that kind. -/
theorem failures_go_by_status (hprepare : p.prepare q = .ok r)
    (hanswer : network r = .answered status body) :
    (isSuccess status = false → ∃ m,
      (∀ m', SaysWhy (Text.decodeLossy (body.getD [])) m' ↔ m' = m) ∧
      p.chat network q = .error (kindOf status
        ("HTTP " ++ toString status ++ ": " ++ (p.vendor.label ++ " API error: " ++ m)))) ∧
    (isSuccess status = true →
      (∃ c, p.chat network q = .ok c) ∨ ∃ text, p.chat network q = .error (.provider text)) ∧
    ∀ (s : Surroundings) (t : Files.Tree) (directory : String) (d : Demand) (f : Failure),
      q = Generation.query d.model d.prompt →
      (Generation.generate (p.chat network) s t directory d).result = .error f →
      ∃ text, f = .generation (kindOf status text) := by
  have hchat : p.chat network q = p.conclude r (.answered status body) := by
    simp only [chat_eq, hprepare, hanswer]
  rw [hchat]
  refine ⟨fun hrefused => ?_, conclude_success, fun s t directory d f hq hf => ?_⟩
  · refine ⟨_, fun m' => ⟨SaysWhy.eq_refusalText, ?_⟩, conclude_refused hrefused⟩
    rintro rfl
    exact saysWhy_refusalText _
  · obtain ⟨e, rfl, he⟩ := generate_eq_error hf
    rw [← hq, hchat] at he
    cases hsuccess : isSuccess status with
    | true =>
      have hended : (∃ c, p.conclude r (.answered status body) = .ok c) ∨
          ∃ text, p.conclude r (.answered status body) = .error (.provider text) :=
        conclude_success hsuccess
      rcases hended with ⟨c, hc⟩ | ⟨text, htext⟩
      · rw [hc] at he
        cases he
      · rw [htext] at he
        exact ⟨text, by rw [← Except.error.inj he, kindOf_success hsuccess]⟩
    | false =>
      rw [conclude_refused hsuccess] at he
      exact ⟨_, by rw [← Except.error.inj he]⟩

/-- A refusal that says why. -/
def hurried : Text.Bytes :=
  Text.bytesOf "\x7b\"error\": \x7b\"code\": 429, \"message\": \"slow\"\x7d\x7d"

theorem a_hurried_question_is_limited :
    (⟨.anthropic, some "k", "http://127.0.0.1:9", "m"⟩ : Provider).chat
        (fun _ => .answered 429 (some hurried)) ⟨[], none, ⟨none, none⟩⟩ =
      .error (.rateLimited "HTTP 429: Anthropic API error: slow") := by
  have hready : ((⟨.anthropic, some "k", "http://127.0.0.1:9", "m"⟩ : Provider).prepare
      ⟨[], none, ⟨none, none⟩⟩).toBool = true := by decide +kernel
  cases hprepare : (⟨.anthropic, some "k", "http://127.0.0.1:9", "m"⟩ : Provider).prepare
      ⟨[], none, ⟨none, none⟩⟩ with
  | error e =>
    rw [hprepare] at hready
    cases hready
  | ok r =>
    obtain ⟨hrefused, -⟩ := @failures_go_by_status _ _ r
      (fun _ => .answered 429 (some hurried)) 429 _ hprepare rfl
    obtain ⟨m, hm, hchat⟩ := hrefused rfl
    have hslow : refusalText (String.ofList (Text.decodeLossy hurried)) = "slow" := by
      decide +kernel
    have hmessage := (hm _).1 (saysWhy_refusalText _)
    rw [hchat, ← hmessage]
    show Except.error (kindOf 429 ("HTTP " ++ toString 429 ++ ": " ++ ("Anthropic" ++
      " API error: " ++ refusalText (String.ofList (Text.decodeLossy hurried))))) = _
    rw [hslow]
    decide

/-- A refusal with a number past every magnitude. -/
def overlarge : String := "\x7b\"error\":\x7b\"message\":\"x\"\x7d,\"n\":1e400\x7d"

/-- The number is out of all proportion, and so the message in its place is not found. -/
theorem a_large_number_hides_the_message :
    (∃ meaning e, Says (Text.decodeLossy (Text.bytesOf overlarge)) meaning ∧
      meaning.member? "error" = some e ∧ e.member? "message" = some (.string (some "x"))) ∧
      (⟨.openAi, some "k", "http://127.0.0.1:9", "m"⟩ : Provider).chat
        (fun _ => .answered 500 (some (Text.bytesOf overlarge))) ⟨[], none, ⟨none, none⟩⟩ =
        .error (.provider ("HTTP 500: openai API error: " ++ overlarge)) := by
  refine ⟨?_, by decide +kernel⟩
  let message : Member := .tight (.plain "message" rfl) (.string (some "x")) "\"x\""
  let error : Member := .tight (.plain "error" rfl) (.object [message.meaning])
    "\x7b\"message\":\"x\"\x7d"
  let number : Member := .tight (.plain "n" rfl) .number "1e400"
  have herror : Spells error.value.meaning error.value.text :=
    @Spells.object [message] .none (List.forall_mem_singleton.2 (.string (.plain "x" rfl)))
  have hexponent : Exponent ['e', '4', '0', '0'] :=
    .digits List.mem_cons_self (List.mem_cons_self (a := [])) (List.cons_ne_nil '4' _)
      (List.all_eq_true.1 rfl)
  have hnumber : Spells number.value.meaning number.value.text :=
    @Spells.number [] ['1'] [] ['e', '4', '0', '0'] List.mem_cons_self
      ⟨List.all_eq_true.1 rfl, .inr (by decide)⟩ .none hexponent (by decide)
  refine ⟨_, error.value.meaning, ⟨.none, .none, _, ?_, @Spells.object [error, number] .none
    (List.forall_mem_cons.2 ⟨herror, List.forall_mem_singleton.2 hnumber⟩)⟩, ?_, ?_⟩
  · decide +kernel
  · rfl
  · rfl

end PromptRunner.Provider
