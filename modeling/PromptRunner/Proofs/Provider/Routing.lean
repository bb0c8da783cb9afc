import Mathlib.Data.List.Infix
import PromptRunner.Proofs.Text.Blank
import PromptRunner.Provider.Chat

/-!
# A model's vendor and nothing of the others

No selector begins another, so at most one of them begins a model, and then it names the vendor and
is cut off, once. What a provider asks and answers hangs on the settings only through the access of
the vendor that the model selects: the keys and addresses of the others do not reach the wire.
-/

namespace PromptRunner.Provider

open PromptRunner.Text PromptRunner.Web

/-! ## Which vendor -/

namespace Vendor

variable {v w : Vendor} {model : List Char}

theorem mem_all (v : Vendor) : v ∈ all := by
  cases v <;> decide

/-- A selector begins no other. -/
theorem eq_of_selector_isPrefix (h : v.selector.toList <+: w.selector.toList) : v = w := by
  revert h
  cases v <;> cases w <;> decide

theorem eq_of_selectors (hv : v.selector.toList <+: model) (hw : w.selector.toList <+: model) :
    v = w := by
  rcases List.prefix_or_prefix_of_prefix hv hw with h | h
  · exact eq_of_selector_isPrefix h
  · exact (eq_of_selector_isPrefix h).symm

theorem isPrefix_of_selected (h : selected? model = some v) : v.selector.toList <+: model := by
  have hfind : all.find? (fun v => startsWith model v.selector.toList) = some v := h
  have hstart := List.find?_some hfind
  exact startsWith_iff.1 hstart

theorem selected?_eq_some_iff : selected? model = some v ↔ v.selector.toList <+: model := by
  refine ⟨isPrefix_of_selected, fun h => ?_⟩
  -- something is found, and nothing else can be
  have hfound : (selected? model).isSome = true :=
    List.find?_isSome.2 ⟨v, mem_all v, startsWith_iff.2 h⟩
  obtain ⟨w, hw⟩ := Option.isSome_iff_exists.1 hfound
  rw [hw, eq_of_selectors (isPrefix_of_selected hw) h]

theorem selected?_eq_none (h : ∀ v : Vendor, ¬ v.selector.toList <+: model) :
    selected? model = none :=
  Option.eq_none_iff_forall_ne_some.2 fun v hv => h v (selected?_eq_some_iff.1 hv)

theorem selected?_append (v : Vendor) (rest : String) :
    selected? (v.selector ++ rest).toList = some v := by
  rw [selected?_eq_some_iff, String.toList_append]
  exact List.prefix_append ..

theorem ofModel_append (v : Vendor) (rest : String) : ofModel (v.selector ++ rest) = v := by
  rw [ofModel, selected?_append]

theorem wireModel_append (v : Vendor) (rest : String) : wireModel (v.selector ++ rest) = rest := by
  rw [wireModel, selected?_append]
  simp only [String.toList_append, ← String.length_toList, List.drop_left, String.ofList_toList]

/-- Two beginnings of names that exclude each other. -/
theorem not_both_names {name : List Char} (h : "gemini".toList <+: name)
    (h' : "claude".toList <+: name) : False := by
  rcases List.prefix_or_prefix_of_prefix h h' with h | h
  · exact absurd h (by decide)
  · exact absurd h (by decide)

/-- Without a selector, the beginning of the name in small letters decides. -/
theorem ofModel_of_name {model : String} (h : selected? model.toList = none) :
    (ofModel model = .gemini ↔ "gemini".toList <+: model.toList.map Char.toLower) ∧
      (ofModel model = .anthropic ↔ "claude".toList <+: model.toList.map Char.toLower) ∧
      (ofModel model = .openAi ↔ ¬ "gemini".toList <+: model.toList.map Char.toLower ∧
        ¬ "claude".toList <+: model.toList.map Char.toLower) := by
  have hname : ofModel model =
      if startsWith (model.toList.map Char.toLower) "gemini".toList then .gemini
      else if startsWith (model.toList.map Char.toLower) "claude".toList then .anthropic
      else .openAi := by
    rw [ofModel, h]
  by_cases hgemini : "gemini".toList <+: model.toList.map Char.toLower
  · rw [hname, if_pos (startsWith_iff.2 hgemini)]
    exact ⟨iff_of_true rfl hgemini, iff_of_false (by decide) (not_both_names hgemini),
      iff_of_false (by decide) fun hneither => hneither.1 hgemini⟩
  · rw [hname, if_neg (fun hstart => hgemini (startsWith_iff.1 hstart))]
    by_cases hclaude : "claude".toList <+: model.toList.map Char.toLower
    · rw [if_pos (startsWith_iff.2 hclaude)]
      exact ⟨iff_of_false (by decide) hgemini, iff_of_true rfl hclaude,
        iff_of_false (by decide) fun hneither => hneither.2 hclaude⟩
    · rw [if_neg (fun hstart => hclaude (startsWith_iff.1 hstart))]
      exact ⟨iff_of_false (by decide) hgemini, iff_of_false (by decide) hclaude,
        iff_of_true rfl ⟨hgemini, hclaude⟩⟩

end Vendor

/-! ## What reaches the wire -/

variable {p : Provider} {q : Query}

/-- What a question sends. -/
def requests (p : Provider) (q : Query) : List WebRequest :=
  match p.prepare q with
  | .ok r => [r]
  | .error _ => []

/-- The network is asked nothing but what is sent. -/
theorem chat_congr {network network' : Network}
    (h : ∀ r ∈ p.requests q, network r = network' r) : p.chat network q = p.chat network' q := by
  rw [requests] at h
  rw [chat_eq, chat_eq]
  cases hprepared : p.prepare q with
  | error e => rfl
  | ok r =>
    rw [hprepared] at h
    exact congrArg (p.conclude r) (h r List.mem_cons_self)

theorem ofSettings_congr {s s' : Settings} {model : String}
    (h : s.accesses.of (Vendor.ofModel model) = s'.accesses.of (Vendor.ofModel model)) :
    ofSettings s model = ofSettings s' model := by
  rw [ofSettings, ofSettings, h]

theorem prepare_of_no_key (h : p.key = none) :
    p.prepare q = .error (missingKey p.vendor.keyVariable) := by
  rw [prepare, prepareBy, h]

theorem requests_of_no_key (h : p.key = none) : p.requests q = [] := by
  rw [requests, prepare_of_no_key h]

theorem chat_of_no_key {network : Network} (h : p.key = none) :
    p.chat network q = .error (missingKey p.vendor.keyVariable) := by
  rw [chat_eq, prepare_of_no_key h]

theorem ofSettings_key {s : Settings} {model : String}
    (h : (s.accesses.of (Vendor.ofModel model)).key = none ∨
      (s.accesses.of (Vendor.ofModel model)).key = some "") : (ofSettings s model).key = none := by
  rw [ofSettings, of]
  rcases h with h | h <;> rw [h] <;> rfl

/-- A selector decides the vendor and is not sent, and otherwise the name does and is sent. The
settings of the other vendors change neither what is sent nor what comes of it, and without a key
nothing is sent. -/
theorem routed_and_isolated (model : String) :
    (∀ (v : Vendor) (rest : String), model = v.selector ++ rest →
        Vendor.ofModel model = v ∧ Vendor.wireModel model = rest) ∧
      ((∀ (v : Vendor) (rest : String), model ≠ v.selector ++ rest) →
        Vendor.wireModel model = model ∧
          (Vendor.ofModel model = .gemini ↔ "gemini".toList <+: model.toList.map Char.toLower) ∧
          (Vendor.ofModel model = .anthropic ↔ "claude".toList <+: model.toList.map Char.toLower) ∧
          (Vendor.ofModel model = .openAi ↔ ¬ "gemini".toList <+: model.toList.map Char.toLower ∧
            ¬ "claude".toList <+: model.toList.map Char.toLower)) ∧
      (∀ s s' : Settings,
        s.accesses.of (Vendor.ofModel model) = s'.accesses.of (Vendor.ofModel model) →
        ∀ (network network' : Network) (q : Query),
          (∀ r ∈ (ofSettings s model).requests q, network r = network' r) →
          (ofSettings s model).requests q = (ofSettings s' model).requests q ∧
            (ofSettings s model).chat network q = (ofSettings s' model).chat network' q) ∧
      ∀ s : Settings,
        ((s.accesses.of (Vendor.ofModel model)).key = none ∨
          (s.accesses.of (Vendor.ofModel model)).key = some "") →
        ∀ (network : Network) (q : Query), (ofSettings s model).requests q = [] ∧
          (ofSettings s model).chat network q = .error (.settings
            ((Vendor.ofModel model).keyVariable ++
              " is not set (export it or add it to a .env file)")) := by
  refine ⟨?_, ?_, ?_, ?_⟩
  · rintro v rest rfl
    exact ⟨Vendor.ofModel_append v rest, Vendor.wireModel_append v rest⟩
  · intro hplain
    have hnone : Vendor.selected? model.toList = none := by
      refine Vendor.selected?_eq_none fun v ⟨rest, hrest⟩ => hplain v (String.ofList rest) ?_
      exact String.toList_injective (by simp [hrest])
    refine ⟨?_, Vendor.ofModel_of_name hnone⟩
    rw [Vendor.wireModel, hnone]
  · intro s s' h network network' q hanswers
    rw [ofSettings_congr h] at hanswers ⊢
    exact ⟨rfl, chat_congr hanswers⟩
  · intro s h network q
    have hkey := ofSettings_key h
    exact ⟨requests_of_no_key hkey, chat_of_no_key hkey⟩

/-- Settings with a key for one vendor. -/
def furnished (openRouter : String) : Settings :=
  { Settings.standard with
    accesses := { Accesses.unset with openRouter := ⟨some openRouter, none⟩ } }

/-- Settings with a key for every vendor. -/
def crowded (openRouter : String) : Settings :=
  { furnished openRouter with
    accesses := ⟨⟨some "g", none⟩, ⟨some "o", some "http://127.0.0.1:9"⟩, ⟨some "a", some "x"⟩,
      ⟨some openRouter, none⟩⟩ }

/-- A selector with another behind it, a name without one, and a vendor without a key. -/
theorem openRouter_asked_alone :
    Vendor.ofModel "openrouter/openai/o3" = .openRouter ∧
      Vendor.wireModel "openrouter/openai/o3" = "openai/o3" ∧
      Vendor.ofModel "Claude-3" = .anthropic ∧
      (ofSettings (furnished "r") "openrouter/openai/o3").chat (fun _ => .unreachable)
          ⟨[], none, ⟨none, none⟩⟩ =
        (ofSettings (crowded "r") "openrouter/openai/o3").chat (fun _ => .unreachable)
          ⟨[], none, ⟨none, none⟩⟩ ∧
      (ofSettings (furnished "r") "Claude-3").requests ⟨[], none, ⟨none, none⟩⟩ = [] := by
  have hselected := (routed_and_isolated "openrouter/openai/o3").1 .openRouter "openai/o3"
    (by decide)
  have hplain : ∀ (v : Vendor) (rest : String), "Claude-3" ≠ v.selector ++ rest := by
    intro v rest heq
    have hstart : v.selector.toList <+: "Claude-3".toList :=
      ⟨rest.toList, by rw [heq, String.toList_append]⟩
    revert hstart
    cases v <;> decide
  have hnamed := (routed_and_isolated "Claude-3").2.1 hplain
  have hclaude : Vendor.ofModel "Claude-3" = .anthropic := hnamed.2.2.1.2 (by decide)
  refine ⟨hselected.1, hselected.2, hclaude, ?_, ?_⟩
  · have hsame : (furnished "r").accesses.of (Vendor.ofModel "openrouter/openai/o3") =
        (crowded "r").accesses.of (Vendor.ofModel "openrouter/openai/o3") := by
      rw [hselected.1]
      rfl
    exact ((routed_and_isolated "openrouter/openai/o3").2.2.1 (furnished "r") (crowded "r") hsame
      (fun _ => .unreachable) (fun _ => .unreachable) ⟨[], none, ⟨none, none⟩⟩
      (fun _ _ => rfl)).2
  · have hkey : ((furnished "r").accesses.of (Vendor.ofModel "Claude-3")).key = none := by
      rw [hclaude]
      rfl
    exact ((routed_and_isolated "Claude-3").2.2.2 (furnished "r") (.inl hkey)
      (fun _ => .unreachable) ⟨[], none, ⟨none, none⟩⟩).1

end PromptRunner.Provider
