import PromptRunner.Generation
import PromptRunner.Proofs.Json.Compact
import PromptRunner.Provider.Chat

/-!
# What a server is told

A question goes over the wire as a document in one line. Here it is read as a server would read it:
the text is parsed again, and what the document says under its names is the conversation. Each of
the three formats has a structure of what it says (`Carries`): the messages in their order with
their roles, what the system says if it stands apart, how long the answer may be, and the
temperature. What is not set is not there, which is not the same as null.

A temperature is written with the digits that tell it apart, and so the number that is parsed is
what these digits say with sixty-four bits. `Tells` says no more of it than that. What is no number
is written as what is past every magnitude, which stands for both.

Two of the formats pass over all but the first thing the system says. `Vendor.told` is what a vendor
gets to know of some messages, and two conversations make the same text exactly if they agree on
that.
-/

namespace PromptRunner

namespace Provider

open PromptRunner.Json PromptRunner.Number

variable {d : Nat} {q : Query} {doc : Value}

/-! ## Options -/

/-- A value of thirty-two bits. -/
def IsSingle : Binary → Prop
  | .finite _ x => x.Fits binary32
  | .infinite _ => True

theorem isSingle_ofDecimal (negative : Bool) (digits : Nat) (exponent : Int) :
    IsSingle (binary32.ofDecimal negative digits exponent) := by
  unfold Format.ofDecimal
  split
  next num den heq =>
    have hden : den ≠ 0 := by
      split at heq <;> cases heq
      · exact one_ne_zero
      · exact (Nat.pow_pos (by decide)).ne'
    split
    · next x hx => exact Format.fits_of_round (by decide) (by decide) hden hx
    · trivial

/-- Options whose values have the width that they are kept in. -/
structure Options.Proper (o : Options) : Prop where
  count : ∀ n, o.maxTokens = some n → n ≤ countMax
  temperature : ∀ x, o.temperature = some x → IsSingle x

/-- What a step asks is proper. -/
theorem proper_of_query (model prompt : String) :
    (Generation.query model prompt).options.Proper where
  count := by
    rintro _ ⟨⟩
    decide
  temperature := by
    rintro _ ⟨⟩
    exact isSingle_ofDecimal false 1 (-1)

/-- What is parsed of a number that was written: a number with its sign, or null if it was past
every magnitude. -/
structure Tells (n : Number) (x : Binary) (v : Value) : Prop where
  parsed : Value.parse (String.ofList (Value.number n).compact) = .ok v
  finite : ∀ negative size, x = .finite negative size →
    ∃ y, v = .number (.real (.finite negative y))
  infinite : ∀ negative, x = .infinite negative → v = .null

theorem tells_of_finite {n : Number} {negative : Bool} {size y : Magnitude}
    (h : n.ReadAs (.number (.real (.finite negative y)))) :
    Tells n (.finite negative size) (.number (.real (.finite negative y))) where
  parsed := parse_compact (.number h)
  finite := by
    rintro _ _ ⟨⟩
    exact ⟨y, rfl⟩
  infinite := nofun

theorem tells_of_infinite {n : Number} {negative : Bool} (h : n.ReadAs .null) :
    Tells n (.infinite negative) .null where
  parsed := parse_compact (.number h)
  finite := nofun
  infinite _ _ := rfl

theorem exists_tells_single {x : Binary} (hx : IsSingle x) :
    ∃ v, Tells (.single x) x v ∧ (Number.single x).ReadAs v := by
  cases x with
  | finite negative size =>
    obtain ⟨y, hy⟩ := exists_readAs_single negative hx
    exact ⟨_, tells_of_finite hy, hy⟩
  | infinite negative =>
    have hnull : (Number.single (.infinite negative)).ReadAs .null := readAs_null rfl
    exact ⟨_, tells_of_infinite hnull, hnull⟩

theorem exists_tells_widened {x : Binary} (hx : IsSingle x) :
    ∃ v, Tells (.real (binary64.convert x)) x v ∧
      (Number.real (binary64.convert x)).ReadAs v := by
  cases x with
  | finite negative size =>
    obtain ⟨wide, hwide, hfits⟩ := convert_fits negative hx
    obtain ⟨y, hy⟩ := exists_readAs_real negative hfits
    rw [hwide]
    exact ⟨_, tells_of_finite hy, hy⟩
  | infinite negative =>
    have hnull : (Number.real (binary64.convert (.infinite negative))).ReadAs .null :=
      readAs_null rfl
    exact ⟨_, tells_of_infinite hnull, hnull⟩

/-- What a temperature comes back as, if one is set. -/
theorem exists_temperature {o : Options} (ho : o.Proper) {number : Binary → Number}
    (h : ∀ x, IsSingle x → ∃ v, Tells (number x) x v ∧ (number x).ReadAs v) :
    ∃ t, Option.Rel (fun x v => Tells (number x) x v) o.temperature t ∧
      ∀ d, Option.Rel (ReadAs d) (o.temperature.map fun x => .number (number x)) t := by
  cases hx : o.temperature with
  | none => exact ⟨none, .none, fun _ => .none⟩
  | some x =>
    obtain ⟨v, htells, hread⟩ := h x (ho.temperature x hx)
    exact ⟨some v, .some htells, fun _ => .some (.number hread)⟩

/-! ## Members -/

theorem membersReadAs_optional {name : String} {o o' : Option Value}
    (h : Option.Rel (ReadAs d) o o') :
    MembersReadAs d (optionalMember name o) (optionalMember name o') := by
  cases h with
  | some h => exact .cons h .nil
  | none => exact .nil

@[simp] theorem member?_optional (n : String) (o : Option Value) (name : String) :
    (Value.object (optionalMember n o)).member? name = if name = n then o else none := by
  cases o with
  | none => exact (ite_self none).symm
  | some v =>
    rw [optionalMember, Value.member?_cons, Value.member?_nil]
    rfl

theorem rel_self {α : Type} {o : Option α} {f : α → Value}
    (h : ∀ x, o = some x → ReadAs d (f x) (f x)) :
    Option.Rel (ReadAs d) (o.map f) (o.map f) := by
  cases o with
  | none => exact .none
  | some x => exact .some (h x rfl)

theorem readAs_count {n : Nat} (h : n ≤ countMax) : ReadAs d (countValue n) (countValue n) :=
  .number (readAs_natural (le_trans h (by decide)))

theorem membersReadAs_count {o : Options} (ho : o.Proper) (name : String) :
    MembersReadAs d (optionalMember name (o.maxTokens.map countValue))
      (optionalMember name (o.maxTokens.map fun n => .number (.natural n))) :=
  membersReadAs_optional (rel_self fun n hn => readAs_count (ho.count n hn))

/-! ## Documents -/

/-- One thing said, as two of the formats have it. -/
def saidAs (m : Message) : Value :=
  .object [("role", .string m.role.name), ("content", .string m.content)]

theorem readAs_said (messages : List Message) :
    ReadAs (d + 2) (.list (messages.map messageValue)) (.list (messages.map saidAs)) := by
  refine ReadAs.list_self fun v hv => ?_
  obtain ⟨m, -, rfl⟩ := List.mem_map.1 hv
  exact .of_members (.cons (.string _) (.cons (.string _) .nil))

namespace ChatCompletions

/-- A document that says a question in the format of one list. -/
structure Carries (q : Query) (doc : Value) : Prop where
  messages : doc.member? "messages" = some (.list (q.messages.map saidAs))
  maxTokens : doc.member? "max_tokens" = q.options.maxTokens.map fun n => .number (.natural n)
  temperature : Option.Rel (fun x v => Tells (.single x) x v) q.options.temperature
    (doc.member? "temperature")

theorem exists_readAs_body (model : String) (ho : q.options.Proper) :
    ∃ t, Option.Rel (fun x v => Tells (.single x) x v) q.options.temperature t ∧
      ReadAs depthLimit (body model q) (.object <|
        [("model", .string model), ("messages", .list (q.messages.map saidAs))] ++
          optionalMember "temperature" t ++
          optionalMember "max_tokens" (q.options.maxTokens.map fun n => .number (.natural n))) := by
  obtain ⟨t, htells, hread⟩ := exists_temperature ho fun _ => exists_tells_single
  refine ⟨t, htells,
    .of_members (d := 126) (.append (.append (.cons (.string _) (.cons ?_ .nil)) ?_) ?_)⟩
  · exact readAs_said q.messages
  · exact membersReadAs_optional (hread 126)
  · exact membersReadAs_count ho "max_tokens"

theorem body_carries (model : String) (ho : q.options.Proper) :
    ∃ doc, Value.parse (String.ofList (body model q).compact) = .ok doc ∧ Carries q doc := by
  obtain ⟨t, htells, hbody⟩ := exists_readAs_body model ho
  refine ⟨_, parse_compact hbody, ?_, ?_, ?_⟩ <;> simp [htells]

theorem body_names (model : String) (ho : q.options.Proper) :
    ∃ doc, Value.parse (String.ofList (body model q).compact) = .ok doc ∧
      doc.member? "model" = some (.string model) := by
  obtain ⟨t, -, hbody⟩ := exists_readAs_body model ho
  exact ⟨_, parse_compact hbody, by simp⟩

end ChatCompletions

namespace Messages

/-- A document that says a question in the format with the system apart. -/
structure Carries (q : Query) (doc : Value) : Prop where
  messages : doc.member? "messages" = some (.list ((spoken q.messages).map saidAs))
  system : doc.member? "system" = (systemText? q.messages).map .string
  maxTokens : doc.member? "max_tokens" =
    some (.number (.natural (q.options.maxTokens.getD 4096)))
  temperature : Option.Rel (fun x v => Tells (.single x) x v) q.options.temperature
    (doc.member? "temperature")

theorem exists_readAs_body (model : String) (ho : q.options.Proper) :
    ∃ t, Option.Rel (fun x v => Tells (.single x) x v) q.options.temperature t ∧
      ReadAs depthLimit (body model q) (.object <|
        [ ("model", .string model),
          ("max_tokens", .number (.natural (q.options.maxTokens.getD 4096))) ] ++
          optionalMember "system" ((systemText? q.messages).map .string) ++
          [("messages", .list ((spoken q.messages).map saidAs))] ++
          optionalMember "temperature" t) := by
  obtain ⟨t, htells, hread⟩ := exists_temperature ho fun _ => exists_tells_single
  have hcount : q.options.maxTokens.getD standardMaxTokens ≤ countMax := by
    cases hn : q.options.maxTokens with
    | none => decide
    | some n => exact ho.count n hn
  refine ⟨t, htells, .of_members (d := 126) (.append (.append (.append
    (.cons (.string _) (.cons ?_ .nil)) ?_) (.cons ?_ .nil)) ?_)⟩
  · exact readAs_count hcount
  · exact membersReadAs_optional (rel_self fun _ _ => .string _)
  · exact readAs_said (spoken q.messages)
  · exact membersReadAs_optional (hread 126)

theorem body_carries (model : String) (ho : q.options.Proper) :
    ∃ doc, Value.parse (String.ofList (body model q).compact) = .ok doc ∧ Carries q doc := by
  obtain ⟨t, htells, hbody⟩ := exists_readAs_body model ho
  refine ⟨_, parse_compact hbody, ?_, ?_, ?_, ?_⟩ <;> simp [htells]

theorem body_names (model : String) (ho : q.options.Proper) :
    ∃ doc, Value.parse (String.ofList (body model q).compact) = .ok doc ∧
      doc.member? "model" = some (.string model) := by
  obtain ⟨t, -, hbody⟩ := exists_readAs_body model ho
  exact ⟨_, parse_compact hbody, by simp⟩

end Messages

namespace Gemini

/-- A text, as this format has it. -/
def inParts (text : String) : Value := .list [.object [("text", .string text)]]

/-- One thing said, as this format has it. -/
def saidInParts (m : Message) : Value :=
  .object [ ("parts", inParts m.content),
    ("role", .string (if m.role = .assistant then "model" else "user")) ]

/-- A document that says a question in the format of parts. -/
structure Carries (q : Query) (doc : Value) : Prop where
  contents : doc.member? "contents" = some (.list ((spoken q.messages).map saidInParts))
  system : doc.member? "systemInstruction" =
    (systemText? q.messages).map fun text => .object [("parts", inParts text)]
  maxTokens : (doc.get "generationConfig").member? "maxOutputTokens" =
    q.options.maxTokens.map fun n => .number (.natural n)
  temperature : Option.Rel (fun x v => Tells (.real (binary64.convert x)) x v)
    q.options.temperature ((doc.get "generationConfig").member? "temperature")

theorem saidInParts_eq (m : Message) :
    saidInParts m =
      .object [("parts", parts m.content), ("role", .string (roleName m.role))] := by
  obtain ⟨role, content⟩ := m
  cases role <;> rfl

theorem readAs_parts (text : String) : ReadAs (d + 2) (parts text) (inParts text) := by
  refine ReadAs.list_self fun v hv => ?_
  rw [List.mem_singleton.1 hv]
  exact .of_members (.cons (.string _) .nil)

theorem readAs_contents (messages : List Message) :
    ReadAs (d + 4)
      (.list (messages.map fun m =>
        .object [("parts", parts m.content), ("role", .string (roleName m.role))]))
      (.list (messages.map saidInParts)) := by
  simp only [← saidInParts_eq]
  refine ReadAs.list_self fun v hv => ?_
  obtain ⟨m, -, rfl⟩ := List.mem_map.1 hv
  exact .of_members (.cons (readAs_parts m.content) (.cons (.string _) .nil))

theorem body_carries (ho : q.options.Proper) :
    ∃ doc, Value.parse (String.ofList (body q).compact) = .ok doc ∧ Carries q doc := by
  obtain ⟨t, htells, hread⟩ := exists_temperature ho fun _ => exists_tells_widened
  have hconfig : ReadAs 126 (.object (optionalMember "maxOutputTokens"
        (q.options.maxTokens.map countValue) ++ optionalMember "temperature"
          (q.options.temperature.map temperatureValue)))
      (.object (optionalMember "maxOutputTokens"
        (q.options.maxTokens.map fun n => .number (.natural n)) ++
          optionalMember "temperature" t)) :=
    .of_members (.append (membersReadAs_count ho _) (membersReadAs_optional (hread 125)))
  have hbody : ReadAs depthLimit (body q) (.object <|
      [ ("contents", .list ((spoken q.messages).map saidInParts)),
        ("generationConfig", .object (optionalMember "maxOutputTokens"
          (q.options.maxTokens.map fun n => .number (.natural n)) ++
            optionalMember "temperature" t)) ] ++
        optionalMember "systemInstruction"
          ((systemText? q.messages).map fun text => .object [("parts", inParts text)])) := by
    refine .of_members (d := 126) (.append (.cons ?_ (.cons hconfig .nil)) ?_)
    · exact readAs_contents (spoken q.messages)
    · refine membersReadAs_optional (rel_self fun text _ => ?_)
      exact .of_members (.cons (readAs_parts text) .nil)
  refine ⟨_, parse_compact hbody, ?_, ?_, ?_, ?_⟩ <;> simp [Value.get_eq, htells]

end Gemini

/-! ## Conversations -/

/-- What a vendor is told of a conversation. -/
def Vendor.told (v : Vendor) (messages : List Message) : List Message × Option String :=
  match v with
  | .gemini | .anthropic => (spoken messages, systemText? messages)
  | .openAi | .openRouter => (messages, none)

theorem saidAs_injective {m m' : Message} (h : saidAs m = saidAs m') : m = m' := by
  obtain ⟨role, content⟩ := m
  obtain ⟨role', content'⟩ := m'
  simp only [saidAs, Value.object.injEq, List.cons.injEq, Prod.mk.injEq, Value.string.injEq,
    true_and, and_true] at h
  obtain ⟨hrole, rfl⟩ := h
  have hname : ∀ a b : Role, a.name = b.name → a = b := by
    intro a b
    cases a <;> cases b <;> simp [Role.name]
  rw [hname role role' hrole]

/-- Who said what, as a document of the format of parts has it. -/
def Gemini.heard (v : Value) : Message where
  role := if (v.get "role").string? = some "model" then .assistant else .user
  content := (((v.get "parts").item 0).get "text").string?.getD ""

theorem Gemini.heard_saidInParts {m : Message} (hm : m.role ≠ .system) :
    heard (saidInParts m) = m := by
  obtain ⟨role, content⟩ := m
  cases role with
  | system => exact absurd rfl hm
  | user => simp [heard, saidInParts, inParts, Value.get_eq, Value.item, Value.string?]
  | assistant => simp [heard, saidInParts, inParts, Value.get_eq, Value.item, Value.string?]

theorem Gemini.map_heard (messages : List Message) :
    ((spoken messages).map saidInParts).map heard = spoken messages := by
  have hspoken : ∀ m ∈ spoken messages, (heard ∘ saidInParts) m = id m := by
    intro m hm
    exact heard_saidInParts (of_decide_eq_true (List.mem_filter.1 hm).2)
  rw [List.map_map, List.map_congr_left hspoken, List.map_id]

end Provider

namespace Provider

open PromptRunner.Json

variable {p : Provider} {q q' : Query} {doc : Value}

/-- A document that says a question as its vendor is told it. -/
def Carries (p : Provider) (q : Query) (doc : Value) : Prop :=
  match p.vendor with
  | .gemini => Gemini.Carries q doc
  | .anthropic => Messages.Carries q doc
  | .openAi | .openRouter => ChatCompletions.Carries q doc

theorem exists_carries (p : Provider) (ho : q.options.Proper) :
    ∃ doc, Value.parse (String.ofList (p.bodyFor q).compact) = .ok doc ∧ p.Carries q doc := by
  unfold bodyFor Carries
  cases p.vendor with
  | gemini => exact Gemini.body_carries ho
  | anthropic => exact Messages.body_carries _ ho
  | openAi => exact ChatCompletions.body_carries _ ho
  | openRouter => exact ChatCompletions.body_carries _ ho

theorem body_of_prepare {r : Web.WebRequest} (h : p.prepare q = .ok r) :
    r.body = (p.bodyFor q).compact := by
  unfold prepare prepareBy at h
  split at h
  · cases h
  · split at h
    · next hweb =>
      cases h
      unfold Web.prepare at hweb
      split at hweb
      · cases hweb
      · split at hweb
        · cases hweb
        · split at hweb
          · cases hweb
          · split at hweb <;> cases hweb
            rfl
    · cases h

/-- A document says only one conversation. -/
theorem told_of_carries (h : p.Carries q doc) (h' : p.Carries q' doc) :
    p.vendor.told q.messages = p.vendor.told q'.messages := by
  have hlist : ∀ {items items' : List Value}, some (Value.list items) = some (Value.list items') →
      items = items' := by
    rintro _ _ ⟨⟩
    rfl
  unfold Carries at h h'
  unfold Vendor.told
  cases hv : p.vendor with
  | gemini =>
    -- this format has two words for roles, so the system must not be among those who speak
    rw [hv] at h h'
    have hsaid := hlist (h.contents.symm.trans h'.contents)
    have hsystem := h.system.symm.trans h'.system
    have hspoken : spoken q.messages = spoken q'.messages := by
      rw [← Gemini.map_heard, hsaid, Gemini.map_heard]
    have htext : systemText? q.messages = systemText? q'.messages := by
      refine Option.map_injective (fun a b hab => ?_) hsystem
      simpa [Gemini.inParts] using hab
    rw [hspoken, htext]
  | anthropic =>
    rw [hv] at h h'
    have hsaid := hlist (h.messages.symm.trans h'.messages)
    have hsystem := h.system.symm.trans h'.system
    have hspoken : spoken q.messages = spoken q'.messages :=
      (List.map_inj_right fun _ _ => saidAs_injective).1 hsaid
    have htext : systemText? q.messages = systemText? q'.messages := by
      refine Option.map_injective (fun a b hab => ?_) hsystem
      exact Value.string.inj hab
    rw [hspoken, htext]
  | openAi | openRouter =>
    rw [hv] at h h'
    have hsaid := hlist (h.messages.symm.trans h'.messages)
    have hmessages : q.messages = q'.messages :=
      (List.map_inj_right fun _ _ => saidAs_injective).1 hsaid
    rw [hmessages]

theorem bodyFor_congr {messages : List Message}
    (h : p.vendor.told messages = p.vendor.told q.messages) :
    p.bodyFor { q with messages := messages } = p.bodyFor q := by
  unfold Vendor.told at h
  unfold bodyFor
  cases hv : p.vendor with
  | gemini =>
    rw [hv] at h
    obtain ⟨hspoken, hsystem⟩ := Prod.mk.inj h
    simp only [Gemini.body, hspoken, hsystem]
  | anthropic =>
    rw [hv] at h
    obtain ⟨hspoken, hsystem⟩ := Prod.mk.inj h
    simp only [Messages.body, hspoken, hsystem, modelFor]
  | openAi | openRouter =>
    rw [hv] at h
    obtain rfl : messages = q.messages := (Prod.mk.inj h).1
    rfl

/-- What is sent is a text that is parsed to the conversation as the vendor is told it, and two
conversations make one text if and only if the vendor is told the same of both. -/
theorem body_carries_conversation (p : Provider) (q : Query) (ho : q.options.Proper) :
    (∃ doc, Value.parse (String.ofList (p.bodyFor q).compact) = .ok doc ∧ p.Carries q doc) ∧
      (∀ r, p.prepare q = .ok r → r.body = (p.bodyFor q).compact) ∧
      ∀ messages, (p.bodyFor { q with messages := messages }).compact = (p.bodyFor q).compact ↔
        p.vendor.told messages = p.vendor.told q.messages := by
  refine ⟨p.exists_carries ho, fun r => body_of_prepare, fun messages => ⟨fun htext => ?_, ?_⟩⟩
  · -- one text has one document, and that says what the vendor was told
    obtain ⟨doc, hdoc, hcarries⟩ := p.exists_carries ho
    obtain ⟨doc', hdoc', hcarries'⟩ :=
      p.exists_carries (q := { q with messages := messages }) ho
    rw [htext, hdoc] at hdoc'
    cases hdoc'
    exact told_of_carries hcarries' hcarries
  · intro htold
    rw [bodyFor_congr htold]

/-- A dialogue in which the system speaks late. -/
def dialogue : Query where
  messages := [⟨.user, "Say \"hi\".\n"⟩, ⟨.system, "Be brief."⟩, ⟨.assistant, "hi"⟩]
  model := none
  options := (Generation.query "" "").options

theorem dialogue_is_carried :
    let p : Provider := ⟨.anthropic, some "key", "https://api.anthropic.com", "claude"⟩
    dialogue.options.Proper ∧
      (∃ doc, Value.parse (String.ofList (p.bodyFor dialogue).compact) = .ok doc ∧
        doc.member? "messages" =
          some (.list [saidAs ⟨.user, "Say \"hi\".\n"⟩, saidAs ⟨.assistant, "hi"⟩]) ∧
        doc.member? "system" = some (.string "Be brief.") ∧
        doc.member? "max_tokens" = some (.number (.natural 4000))) ∧
      (p.bodyFor { dialogue with
        messages := ⟨.system, "Be brief."⟩ :: dialogue.messages }).compact =
          (p.bodyFor dialogue).compact ∧
      (p.bodyFor { dialogue with messages := [] }).compact ≠ (p.bodyFor dialogue).compact := by
  intro p
  have hproper : dialogue.options.Proper := proper_of_query "" ""
  obtain ⟨⟨doc, hparse, hcarries⟩, -, hiff⟩ := body_carries_conversation p dialogue hproper
  refine ⟨hproper, ⟨doc, hparse, hcarries.messages, hcarries.system, hcarries.maxTokens⟩, ?_, ?_⟩
  · exact (hiff _).2 (by decide)
  · exact mt (hiff _).1 (by decide)

end Provider

end PromptRunner
