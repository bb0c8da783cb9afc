import PromptRunner.Proofs.Provider.Bodies

/-!
# What is lost of a conversation

Whoever asks hands over a list of messages, in which the system may speak as often as it likes and
wherever it likes. What of it reaches the server is read from the document that is sent: the
conversation in it (`Vendor.heard`), and what it says of the system elsewhere
(`Vendor.systemTexts`). Nothing is lost if the conversation is all there in its order and every
word of the system stands in one place or the other (`NothingLost`).

Two of the formats have one list for all that was said, and there nothing is ever lost. The other
two take the system out of the conversation and have a place for one text of it, and what they put
there is the first. So a second message of the system is lost, unless it repeats a part of the
first; `nothing_is_lost_iff` says that this is the only loss there is.
-/

namespace PromptRunner

namespace Provider

open PromptRunner.Json

variable {messages : List Message}

/-! ## What a server reads -/

/-- Who said what, as a document of the other formats has it. -/
def heardAs (v : Value) : Message where
  role :=
    if (v.get "role").string? = some "system" then .system
    else if (v.get "role").string? = some "assistant" then .assistant else .user
  content := (v.get "content").string?.getD ""

theorem heardAs_saidAs (m : Message) : heardAs (saidAs m) = m := by
  obtain ⟨role, content⟩ := m
  cases role <;> simp [heardAs, saidAs, Value.get_eq, Value.string?, Role.name]

theorem map_heardAs (messages : List Message) : (messages.map saidAs).map heardAs = messages := by
  have hsame : heardAs ∘ saidAs = id := funext heardAs_saidAs
  rw [List.map_map, hsame, List.map_id]

/-- The conversation in a document. -/
def Vendor.heard (v : Vendor) (doc : Value) : List Message :=
  match v with
  | .gemini => ((doc.get "contents").items?.getD []).map Gemini.heard
  | .anthropic | .openAi | .openRouter => ((doc.get "messages").items?.getD []).map heardAs

/-- What a document says of the system apart from the conversation. -/
def Vendor.systemTexts (v : Vendor) (doc : Value) : List String :=
  match v with
  | .gemini => Gemini.texts (((doc.get "systemInstruction").get "parts").items?.getD [])
  | .anthropic => (doc.get "system").string?.toList
  | .openAi | .openRouter => []

/-- Nothing is lost of some messages: the others stand in the conversation in their order, and what
the system says stands there too or occurs in a text of the system. -/
structure NothingLost (messages heard : List Message) (texts : List String) : Prop where
  others : spoken heard = spoken messages
  system : ∀ m ∈ messages, m.role = .system →
    m ∈ heard ∨ ∃ text ∈ texts, m.content.toList <:+: text.toList

/-- Whatever the system says occurs in the first that it says. -/
def FirstSaysAll (messages : List Message) : Prop :=
  ∀ m ∈ messages, m.role = .system →
    ∃ first, systemText? messages = some first ∧ m.content.toList <:+: first.toList

theorem firstSaysAll_of_one (h : (messages.filter (·.role = .system)).length ≤ 1) :
    FirstSaysAll messages := by
  intro m hm hsystem
  have hmem : m ∈ messages.filter (·.role = .system) :=
    List.mem_filter.2 ⟨hm, decide_eq_true hsystem⟩
  obtain ⟨only, honly⟩ := List.length_eq_one_iff.1 (le_antisymm h (List.length_pos_of_mem hmem))
  rw [honly, List.mem_singleton] at hmem
  refine ⟨m.content, ?_, List.infix_refl _⟩
  rw [systemText?, ← List.head?_filter, honly, hmem]
  rfl

/-! ## What is lost -/

theorem nothingLost_of_whole (messages : List Message) : NothingLost messages messages [] where
  others := rfl
  system _ hm _ := .inl hm

/-- Where the system is apart, its first message has to say all. -/
theorem nothingLost_apart_iff :
    NothingLost messages (spoken messages) (systemText? messages).toList ↔
      FirstSaysAll messages := by
  constructor
  · intro h m hm hsystem
    rcases h.system m hm hsystem with hspoken | ⟨first, hfirst, hinfix⟩
    · exact absurd hsystem (of_decide_eq_true (List.mem_filter.1 hspoken).2)
    · exact ⟨first, Option.mem_toList.1 hfirst, hinfix⟩
  · intro h
    refine ⟨by simp [spoken], fun m hm hsystem => .inr ?_⟩
    obtain ⟨first, hfirst, hinfix⟩ := h m hm hsystem
    exact ⟨first, Option.mem_toList.2 hfirst, hinfix⟩

end Provider

namespace Provider

open PromptRunner.Json

variable {p : Provider} {q : Query} {doc : Value}

/-- A server reads what its vendor is told. -/
theorem heard_of_carries (h : p.Carries q doc) :
    p.vendor.heard doc = (p.vendor.told q.messages).1 ∧
      p.vendor.systemTexts doc = (p.vendor.told q.messages).2.toList := by
  unfold Carries at h
  unfold Vendor.heard Vendor.systemTexts Vendor.told
  cases hv : p.vendor with
  | gemini =>
    rw [hv] at h
    simp only [Value.get_eq, h.contents, h.system]
    refine ⟨Gemini.map_heard q.messages, ?_⟩
    cases systemText? q.messages <;> rfl
  | anthropic =>
    rw [hv] at h
    simp only [Value.get_eq, h.messages, h.system]
    refine ⟨map_heardAs (spoken q.messages), ?_⟩
    cases systemText? q.messages <;> rfl
  | openAi | openRouter =>
    rw [hv] at h
    simp only [Value.get_eq, h.messages]
    exact ⟨map_heardAs q.messages, rfl⟩

/-- Nothing of a conversation is lost on its way to the server, exactly if the vendor has one list
for all that is said, or the first message of the system says all that it says. -/
theorem nothing_is_lost_iff (p : Provider) (q : Query) (ho : q.options.Proper) :
    (∃ doc, Value.parse (String.ofList (p.bodyFor q).compact) = .ok doc ∧
      (NothingLost q.messages (p.vendor.heard doc) (p.vendor.systemTexts doc) ↔
        p.vendor = .openAi ∨ p.vendor = .openRouter ∨ FirstSaysAll q.messages)) ∧
      ∀ r, p.prepare q = .ok r → r.body = (p.bodyFor q).compact := by
  obtain ⟨doc, hparse, hcarries⟩ := p.exists_carries ho
  obtain ⟨hheard, htexts⟩ := heard_of_carries hcarries
  refine ⟨⟨doc, hparse, ?_⟩, fun r => body_of_prepare⟩
  rw [hheard, htexts]
  cases hv : p.vendor with
  | gemini | anthropic =>
    simp only [Vendor.told, nothingLost_apart_iff, reduceCtorEq, false_or]
  | openAi | openRouter =>
    simp only [Vendor.told, Option.toList_none, nothingLost_of_whole, true_or, or_true]

theorem a_late_message_is_delivered :
    let p : Provider := ⟨.anthropic, some "key", "https://api.anthropic.com", "claude"⟩
    dialogue.options.Proper ∧
      ∃ doc, Value.parse (String.ofList (p.bodyFor dialogue).compact) = .ok doc ∧
        NothingLost dialogue.messages (p.vendor.heard doc) (p.vendor.systemTexts doc) := by
  intro p
  have hproper : dialogue.options.Proper := proper_of_query "" ""
  obtain ⟨⟨doc, hparse, hiff⟩, -⟩ := nothing_is_lost_iff p dialogue hproper
  exact ⟨hproper, doc, hparse, hiff.2 (.inr (.inr (firstSaysAll_of_one (by decide))))⟩

/-- A question before which the system speaks twice. -/
def urged : Query where
  messages := [⟨.system, "Be brief."⟩, ⟨.system, "Use no libraries."⟩, ⟨.user, "hi"⟩]
  model := none
  options := ⟨none, none⟩

/-- What the system says the second time is nowhere in what two of the vendors are sent. -/
theorem a_second_system_message_is_lost :
    ⟨.system, "Use no libraries."⟩ ∈ urged.messages ∧
      ∀ v ∈ [Vendor.gemini, .anthropic],
        ∃ r, (Provider.mk v (some "k") "http://127.0.0.1:9/v1" "m").prepare urged = .ok r ∧
          ¬ "Use no libraries.".toList <:+: r.body := by
  have hlost : ∀ v ∈ [Vendor.gemini, .anthropic], ¬ "Use no libraries.".toList <:+:
      ((Provider.mk v (some "k") "http://127.0.0.1:9/v1" "m").bodyFor urged).compact := by
    decide +kernel
  have hsent : ∀ v ∈ [Vendor.gemini, .anthropic],
      ((Provider.mk v (some "k") "http://127.0.0.1:9/v1" "m").prepare urged).isOk = true := by
    decide +kernel
  refine ⟨by decide, fun v hv => ?_⟩
  have hok := hsent v hv
  cases hprepare : (Provider.mk v (some "k") "http://127.0.0.1:9/v1" "m").prepare urged with
  | error e =>
    rw [hprepare] at hok
    cases hok
  | ok r => exact ⟨r, rfl, (body_of_prepare hprepare).symm ▸ hlost v hv⟩

end Provider

end PromptRunner
