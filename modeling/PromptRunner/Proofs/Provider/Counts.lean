import PromptRunner.Proofs.Json.Compact
import PromptRunner.Proofs.Provider.Answers

/-!
# Counts are the numbers that were given

An answer gives two counts in its document, and what is reported of them is compared with what is
written there. Which numbers a document gives is said by its meaning alone (`Gives`): the whole
numbers in the two places of the vendor's format, without a bound. No text gives two pairs.

Two of the formats report these numbers, since their readers refuse what does not fit thirty-two
bits. The first format takes numbers of sixty-four bits and keeps the low half of each; so what it
reports is what was given if both counts fit, and only then.
-/

namespace PromptRunner

open PromptRunner.Json

/-! ## The last member of a name -/

namespace Json

/-- The last member of a name. -/
def Meaning.last? (m : Meaning) (name : String) : Option Meaning :=
  match m with
  | .object members => members.reverse.lookup (some name)
  | _ => none

/-- What a value has under a name is what its document has under it last. -/
theorem Denotes.last? {d : Nat} {m : Meaning} {t : List Char} {v w : Value} {name : String}
    (h : Denotes d m t v) (hw : v.member? name = some w) :
    ∃ d' m' t', m.last? name = some m' ∧ Denotes d' m' t' w := by
  cases h with
  | @object d members behind hname h =>
    simp only [Value.member?, ← List.map_reverse] at hw
    obtain ⟨m', t', hm', ht'⟩ := lookup_denoted (fun m hm => hname m (List.mem_reverse.1 hm))
      (fun m hm => h m (List.mem_reverse.1 hm)) hw
    refine ⟨d, m', t', ?_, ht'⟩
    rw [Meaning.last?, ← List.map_reverse, ← List.map_reverse]
    exact hm'
  | _ => cases hw

end Json

namespace Provider

/-! ## What a document gives -/

/-- A document gives these two counts, each in its place in the vendor's format. -/
def Vendor.Gives (vendor : Vendor) (m : Meaning) (prompt completion : Nat) : Prop :=
  match vendor with
  | .gemini => ∃ u, m.last? "usageMetadata" = some u ∧
      u.last? "promptTokenCount" = some (.natural prompt) ∧
      u.last? "candidatesTokenCount" = some (.natural completion)
  | .anthropic => ∃ u, m.field? 1 "usage" = some u ∧
      u.field? 0 "input_tokens" = some (.natural prompt) ∧
      u.field? 1 "output_tokens" = some (.natural completion)
  | .openAi | .openRouter => ∃ u, m.field? 1 "usage" = some u ∧
      u.field? 0 "prompt_tokens" = some (.natural prompt) ∧
      u.field? 1 "completion_tokens" = some (.natural completion)

/-- The body of an answer is a document that gives these two counts. -/
def Vendor.GivenBy (vendor : Vendor) (body : Text.Bytes) (prompt completion : Nat) : Prop :=
  ∃ m, Says (bodyText body) m ∧ vendor.Gives m prompt completion

variable {vendor : Vendor} {m : Meaning} {body : Text.Bytes} {a b a' b' : Nat}

theorem Vendor.Gives.unique (h : vendor.Gives m a b) (h' : vendor.Gives m a' b') :
    a' = a ∧ b' = b := by
  have hone : ∀ {x y : Option Meaning} {n k : Nat}, x = some (.natural n) → y = some (.natural k) →
      x = y → k = n := by
    rintro _ _ n k rfl rfl heq
    cases heq
    rfl
  cases vendor <;>
    (obtain ⟨u, hu, hprompt, hcompletion⟩ := h
     obtain ⟨u', hu', hprompt', hcompletion'⟩ := h'
     obtain rfl : u = u' := Option.some.inj (hu.symm.trans hu')
     exact ⟨hone hprompt hprompt' rfl, hone hcompletion hcompletion' rfl⟩)

theorem Vendor.GivenBy.unique (h : vendor.GivenBy body a b) (h' : vendor.GivenBy body a' b') :
    a' = a ∧ b' = b := by
  obtain ⟨m, hm, hgives⟩ := h
  obtain ⟨m', hm', hgives'⟩ := h'
  obtain rfl := hm.unique hm'
  exact hgives.unique hgives'

/-! ## What is reported -/

/-- What a vendor's reader makes of a count. -/
def Vendor.kept (vendor : Vendor) (n : Nat) : Nat :=
  match vendor with
  | .gemini => n % 2 ^ 32
  | _ => n

theorem natural?_get {d : Nat} {t : List Char} {v : Value} {name : String} {n : Nat}
    (h : Denotes d m t v) (hn : (v.get name).natural? = some n) :
    m.last? name = some (.natural n) := by
  rw [Value.get_eq] at hn
  cases hmember : v.member? name with
  | none =>
    rw [hmember] at hn
    cases hn
  | some w =>
    rw [hmember] at hn
    obtain ⟨d', m', t', hm', hw⟩ := h.last? hmember
    match w, hn with
    | .number (.natural k), rfl => rw [hm', hw.meaning_of_natural]

/-- What the reader looks up in an answer of the first format is what the answer gives. -/
theorem Gemini.givenBy {v : Value} (hread : readWhole readValue (bodyText body) = .ok v)
    (ha : ((v.get "usageMetadata").get "promptTokenCount").natural? = some a)
    (hb : ((v.get "usageMetadata").get "candidatesTokenCount").natural? = some b) :
    Vendor.gemini.GivenBy body a b := by
  obtain ⟨m, hm⟩ := readsExactly_value.whole.1 hread
  obtain ⟨before, behind, t, hs, ht⟩ := id hm
  -- a count is found, so there is something to look for it in
  cases hcounts : v.member? "usageMetadata" with
  | none =>
    rw [Value.get_eq v, hcounts] at ha
    cases ha
  | some w =>
    rw [Value.get_eq v, hcounts] at ha hb
    obtain ⟨d', m', t', hm', hw⟩ := ht.last? hcounts
    exact ⟨m, hm.says, m', hm', natural?_get hw ha, natural?_get hw hb⟩

theorem Gemini.of_usage? {v : Value} {u : Usage} (hu : Gemini.usage? v = some u) :
    ∃ a b, ((v.get "usageMetadata").get "promptTokenCount").natural? = some a ∧
      ((v.get "usageMetadata").get "candidatesTokenCount").natural? = some b ∧
      u = .of (a % 2 ^ 32) (b % 2 ^ 32) := by
  simp only [Gemini.usage?] at hu
  split at hu
  · next p c hp hc =>
    cases hu
    unfold Gemini.count? at hp hc
    obtain ⟨a, ha, rfl⟩ := Option.map_eq_some_iff.1 hp
    obtain ⟨b, hb, rfl⟩ := Option.map_eq_some_iff.1 hc
    exact ⟨a, b, ha, hb, rfl⟩
  · cases hu

theorem ChatCompletions.usage_given {t : List Char} {x : Answer} {c : Counts}
    (h : Answers.takes m t x) (hc : x.counts = some c) : Vendor.openAi.Gives m c.input c.output :=
  counts_given Answer.counts (by decide) h (fun _ _ => rfl) (FieldShape.keeps fun _ _ => rfl) rfl
    (by decide) hc

theorem Messages.usage_given {d : Nat} {t : List Char} {x : Answer} {c : Counts}
    (h : (Answers d).takes m t x) (hc : x.counts = some c) :
    Vendor.anthropic.Gives m c.input c.output :=
  counts_given Answer.counts (show "content" ≠ "usage" by decide) h (fun _ _ => rfl)
    (FieldShape.keeps fun _ _ => rfl) rfl (by decide) hc

/-- What a body gives is what its document gives. -/
theorem Vendor.givenBy_of_written {α : Type} {L : Shape α} {x : α}
    (h : Written L (bodyText body) m x) (hgives : ∀ t, L.takes m t x → vendor.Gives m a b) :
    vendor.GivenBy body a b := by
  obtain ⟨before, behind, t, hs, ht⟩ := id h
  exact ⟨m, h.says, hgives t ht⟩

/-- A success whose counts are read gives counts. -/
theorem readSuccess_given {p : Provider} {text : Option String} {u : Usage}
    (h : p.readSuccess body = some (text, some u)) :
    ∃ a b, p.vendor.GivenBy body a b ∧ u = .of (p.vendor.kept a) (p.vendor.kept b) := by
  unfold readSuccess at h
  cases hv : p.vendor with
  | gemini =>
    rw [hv] at h
    simp only at h
    split at h
    · next v hread =>
      obtain ⟨-, hu⟩ := Prod.mk.inj (Option.some.inj h)
      obtain ⟨a, b, ha, hb, rfl⟩ := Gemini.of_usage? hu
      exact ⟨a, b, Gemini.givenBy hread ha hb, rfl⟩
    · cases h
  | anthropic =>
    rw [hv] at h
    simp only at h
    split at h
    · next x hread =>
      obtain ⟨m, hm⟩ := (Messages.readsExactly_answer (d := 125)).whole.1 hread
      obtain ⟨-, hu⟩ := Prod.mk.inj (Option.some.inj h)
      obtain ⟨c, hc, rfl⟩ := Option.map_eq_some_iff.1 hu
      exact ⟨c.input, c.output,
        Vendor.givenBy_of_written hm fun _ ht => Messages.usage_given ht hc, rfl⟩
    · cases h
  | openAi | openRouter =>
    rw [hv] at h
    simp only at h
    split at h
    · next x hread =>
      obtain ⟨m, hm⟩ := (ChatCompletions.readsExactly_answer (d := 123)).whole.1 hread
      obtain ⟨-, hu⟩ := Prod.mk.inj (Option.some.inj h)
      obtain ⟨c, hc, rfl⟩ := Option.map_eq_some_iff.1 hu
      exact ⟨c.input, c.output,
        Vendor.givenBy_of_written hm fun _ ht => ChatCompletions.usage_given ht hc, rfl⟩
    · cases h

theorem conclude_eq_ok {p : Provider} {r : Web.WebRequest} {outcome : Web.WebOutcome}
    {c : Completion} (h : p.conclude r outcome = .ok c) :
    ∃ status body, outcome = .answered status (some body) ∧ Web.isSuccess status = true ∧
      p.readSuccess body = some (some c.content, c.usage) := by
  unfold conclude at h
  split at h
  · cases h
  · next status body =>
    split at h
    · next hsuccess =>
      split at h
      · cases h
      · cases h
      · next text usage hread =>
        obtain ⟨body, rfl, hbody⟩ := Option.bind_eq_some_iff.1 hread
        cases h
        exact ⟨status, body, rfl, hsuccess, hbody⟩
    · cases h

theorem chat_eq_ok {p : Provider} {network : Web.Network} {q : Query} {c : Completion}
    (h : p.chat network q = .ok c) :
    ∃ r status body, p.prepare q = .ok r ∧ network r = .answered status (some body) ∧
      Web.isSuccess status = true ∧ p.readSuccess body = some (some c.content, c.usage) := by
  rw [chat_eq] at h
  split at h
  · cases h
  · next r hr =>
    obtain ⟨status, body, hanswer, hsuccess, hread⟩ := conclude_eq_ok h
    exact ⟨r, status, body, hr, hanswer, hsuccess, hread⟩

/-- Where a question is answered with counts, the answer gives two numbers, and only these. What is
reported are these numbers exactly if the vendor's reader keeps them whole, and their sum stops at
the greatest count. -/
theorem counts_are_given_iff {p : Provider} {network : Web.Network} {q : Query} {c : Completion}
    {u : Usage} (h : p.chat network q = .ok c) (hu : c.usage = some u) :
    ∃ r status body a b, p.prepare q = .ok r ∧ network r = .answered status (some body) ∧
      Web.isSuccess status = true ∧
      (∀ a' b', p.vendor.GivenBy body a' b' ↔ a' = a ∧ b' = b) ∧
      (u.prompt = a ∧ u.completion = b ↔ (p.vendor = .gemini → a < 2 ^ 32 ∧ b < 2 ^ 32)) ∧
      u.total = min (u.prompt + u.completion) (2 ^ 32 - 1) := by
  obtain ⟨r, status, body, hr, hanswer, hsuccess, hread⟩ := chat_eq_ok h
  rw [hu] at hread
  obtain ⟨a, b, hgiven, rfl⟩ := readSuccess_given hread
  refine ⟨r, status, body, a, b, hr, hanswer, hsuccess, fun a' b' => ⟨hgiven.unique, ?_⟩, ?_, rfl⟩
  · rintro ⟨rfl, rfl⟩
    exact hgiven
  · have hbound : 2 ^ 32 ≠ 0 := by decide
    show p.vendor.kept a = a ∧ p.vendor.kept b = b ↔ _
    cases hv : p.vendor with
    | gemini => simp only [Vendor.kept, Nat.mod_eq_iff_lt hbound, forall_const]
    | _ => simp [Vendor.kept]

/-- An answer with small counts. -/
def fewTokens : Text.Bytes :=
  Text.bytesOf ("\x7b\"choices\":[\x7b\"message\":\x7b\"content\":\"t\"\x7d\x7d]," ++
    "\"usage\":\x7b\"prompt_tokens\":3,\"completion_tokens\":4\x7d\x7d")

theorem few_tokens_are_given :
    (⟨.openAi, some "k", "http://127.0.0.1:9", "m"⟩ : Provider).chat
        (fun _ => .answered 200 (some fewTokens)) ⟨[], none, ⟨none, none⟩⟩ =
        .ok ⟨"t", some ⟨3, 4, 7⟩⟩ ∧ Vendor.openAi.GivenBy fewTokens 3 4 := by
  have hchat : (⟨.openAi, some "k", "http://127.0.0.1:9", "m"⟩ : Provider).chat
      (fun _ => .answered 200 (some fewTokens)) ⟨[], none, ⟨none, none⟩⟩ =
      .ok ⟨"t", some ⟨3, 4, 7⟩⟩ := by decide +kernel
  obtain ⟨r, status, body, a, b, -, hanswer, -, hgiven, hreported, -⟩ :=
    counts_are_given_iff hchat rfl
  obtain ⟨rfl, hbody⟩ := Web.WebOutcome.answered.inj hanswer
  obtain rfl := Option.some.inj hbody
  exact ⟨hchat, (hgiven 3 4).2 (hreported.2 nofun)⟩

/-- An answer with a count of thirty-three bits. -/
def manyTokens : Text.Bytes :=
  Text.bytesOf (
    "\x7b\"candidates\":[\x7b\"content\":\x7b\"parts\":[\x7b\"text\":\"t\"\x7d]\x7d\x7d]," ++
      "\"usageMetadata\":\x7b\"promptTokenCount\":4294967301,\"candidatesTokenCount\":7\x7d\x7d")

/-- The highest bit of a large count is lost. -/
theorem a_large_count_wraps :
    (⟨.gemini, some "k", "http://127.0.0.1:9", "m"⟩ : Provider).chat
        (fun _ => .answered 200 (some manyTokens)) ⟨[], none, ⟨none, none⟩⟩ =
        .ok ⟨"t", some ⟨5, 7, 12⟩⟩ ∧ Vendor.gemini.GivenBy manyTokens 4294967301 7 := by
  refine ⟨by decide +kernel, ?_⟩
  have hread : ((readWhole readValue (bodyText manyTokens)).toOption.map fun v =>
      (((v.get "usageMetadata").get "promptTokenCount").natural?,
        ((v.get "usageMetadata").get "candidatesTokenCount").natural?)) =
      some (some 4294967301, some 7) := by decide +kernel
  obtain ⟨v, hv, hcounts⟩ := Option.map_eq_some_iff.1 hread
  obtain ⟨ha, hb⟩ := Prod.mk.inj hcounts
  cases hwhole : readWhole readValue (bodyText manyTokens) with
  | error e =>
    rw [hwhole] at hv
    cases hv
  | ok w =>
    rw [hwhole] at hv
    cases hv
    exact Gemini.givenBy hwhole ha hb

end Provider

end PromptRunner
