import PromptRunner.Proofs.Settings.Document
import PromptRunner.Settings.Environment

/-!
# Settings come in three layers

The settings of a run are taken from the environment, the file and the standard, leaf by leaf. A
`Leaf` is one of the thirteen values that settings consist of; it knows the variables that may set
it, the first before the second, and its place in a document. `layered` reads those two and nothing
else, so that one leaf never depends on what is said of another.

That the run has the layered value at every leaf is shown one layer at a time. In a document, the
record that holds a leaf starts with its standard values at every level, so that an object that
leaves the leaf out leaves it as it was (`Settings.get_ofMeaning`). In the environment, an override
sets its own leaf (`Settings.get_withEnvironment`). All the rest follows from the two equations.
-/

namespace PromptRunner

open PromptRunner.Json PromptRunner.Files PromptRunner.Provider

/-! ## Leaves -/

/-- One of the values that settings consist of. -/
inductive Leaf where
  | model
  | interpreter
  | cacheDirectory
  | temporaryDirectory
  | timeout
  | key (v : Vendor)
  | address (v : Vendor)
  deriving DecidableEq, Repr

/-- The value of a leaf. -/
inductive Setting where
  | unset
  | text (text : String)
  | number (n : Nat)
  deriving DecidableEq, Repr

namespace Setting

def ofText? : Option String → Setting
  | some t => text t
  | none => unset

/-- The value that a field of a document says. -/
def ofMeaning : Meaning → Setting
  | .string t => ofText? t
  | .natural n => number n
  | _ => unset

end Setting

namespace Leaf

/-- The variables that may set a leaf, the one that counts first. -/
def overrides : Leaf → List String
  | model => ["LLMEXEC_MODEL"]
  | interpreter => ["LLMEXEC_PYTHON"]
  | cacheDirectory => ["LLMEXEC_CACHE_DIR"]
  | temporaryDirectory => ["LLMEXEC_TEMP_DIR"]
  | timeout => []
  | key .gemini => ["GEMINI_API_KEY", "GOOGLE_API_KEY"]
  | key .openAi => ["OPENAI_API_KEY"]
  | key .anthropic => ["ANTHROPIC_API_KEY"]
  | key .openRouter => ["OPENROUTER_API_KEY"]
  | address .openAi => ["OPENAI_BASE_URL"]
  | address _ => []

/-- The names that lead to a leaf in a document. -/
def place : Leaf → List String
  | model => ["model"]
  | interpreter => ["python"]
  | cacheDirectory => ["cache_dir"]
  | temporaryDirectory => ["temp_dir"]
  | timeout => ["request_timeout_secs"]
  | key v => ["providers", v.name, "api_key"]
  | address v => ["providers", v.name, "api_base"]

/-- The leaves that no variable sets. -/
def fixed : List Leaf :=
  [timeout, address .gemini, address .anthropic, address .openRouter]

/-- The variables that the settings are taken from. -/
def allVariables : List String :=
  [ "LLMEXEC_MODEL", "LLMEXEC_PYTHON", "LLMEXEC_CACHE_DIR", "LLMEXEC_TEMP_DIR", "GEMINI_API_KEY",
    "GOOGLE_API_KEY", "OPENAI_API_KEY", "OPENAI_BASE_URL", "ANTHROPIC_API_KEY",
    "OPENROUTER_API_KEY" ]

theorem overrides_subset (leaf : Leaf) : ∀ name ∈ leaf.overrides, name ∈ allVariables := by
  match leaf with
  | model | interpreter | cacheDirectory | temporaryDirectory | timeout => decide
  | key v => cases v <;> decide
  | address v => cases v <;> decide

end Leaf

namespace Settings

/-- The value of settings at a leaf. -/
def get (s : Settings) : Leaf → Setting
  | .model => .text s.model
  | .interpreter => .text s.interpreter
  | .cacheDirectory => .ofText? s.cacheDirectory
  | .temporaryDirectory => .ofText? s.temporaryDirectory
  | .timeout => .number s.timeout
  | .key v => .ofText? (s.accesses.of v).key
  | .address v => .ofText? (s.accesses.of v).address

end Settings

/-- The value that the environment gives a leaf: that of its first variable that is set and holds
more than blanks, as it is. -/
def fromEnvironment? (lookUp : String → Option String) (leaf : Leaf) : Option String :=
  leaf.overrides.findSome? fun name => (lookUp name).filter Text.hasInk

/-- The value of a leaf without an environment: what the document says at the place of the leaf, or
the standard value. -/
def fromFile (file : Option Meaning) (leaf : Leaf) : Setting :=
  match file.bind (·.at? leaf.place) with
  | some m => .ofMeaning m
  | none => Settings.standard.get leaf

def layered (lookUp : String → Option String) (file : Option Meaning) (leaf : Leaf) : Setting :=
  match fromEnvironment? lookUp leaf with
  | some text => .text text
  | none => fromFile file leaf

/-! ## The file -/

namespace Setting

theorem ofText?_injective {t t' : Option String} (h : ofText? t = ofText? t') : t = t' := by
  cases t <;> cases t' <;> cases h <;> rfl

theorem of_isText {m : Meaning} (h : IsText m) : ofMeaning m = text (m.text?.getD "") := by
  obtain ⟨t, rfl⟩ := h
  rfl

theorem of_isOptionalText {m : Meaning} (h : IsOptionalText m) :
    ofMeaning m = ofText? m.text? := by
  rcases h with rfl | ⟨t, rfl⟩ <;> rfl

theorem of_isCount {m : Meaning} (h : IsCount m) : ofMeaning m = number (m.natural?.getD 0) := by
  obtain ⟨n, -, rfl⟩ := h
  rfl

end Setting

variable {m : Meaning}

/-- What a document says at a place, or else a value. -/
def Json.Meaning.setting (m : Meaning) (place : List String) (otherwise : Setting) : Setting :=
  ((m.at? place).map .ofMeaning).getD otherwise

theorem setting_cons (m : Meaning) (name : String) (place : List String) (otherwise : Setting) :
    m.setting (name :: place) otherwise =
      ((m.member? name).map (·.setting place otherwise)).getD otherwise := by
  cases h : m.member? name with
  | none => simp only [Meaning.setting, Meaning.at?, h, Option.bind_none, Option.map_none]
  | some v =>
    simp only [Meaning.setting, Meaning.at?, h, Option.bind_some, Option.map_some,
      Option.getD_some]

theorem Access.key_ofMeaning (hm : IsRecord (·.isSome) Access.known m) :
    .ofText? (Access.ofMeaning m).key = m.setting ["api_key"] .unset := by
  rw [setting_cons]
  refine get_assigned (fun a => Setting.ofText? a.key) _ "api_key" rfl ?_ ?_ hm .unset
  · exact fun m hm a => (Setting.of_isOptionalText hm).symm
  · simp [Access.known]

theorem Access.address_ofMeaning (hm : IsRecord (·.isSome) Access.known m) :
    .ofText? (Access.ofMeaning m).address = m.setting ["api_base"] .unset := by
  rw [setting_cons]
  refine get_assigned (fun a => Setting.ofText? a.address) _ "api_base" rfl ?_ ?_ hm .unset
  · exact fun m hm a => (Setting.of_isOptionalText hm).symm
  · simp [Access.known]

/-- A part of an access, in the document of all accesses. -/
theorem Accesses.of_ofMeaning (part : Access → Option String) (name : String)
    (hpart : ∀ m, IsRecord (·.isSome) Access.known m →
      .ofText? (part (Access.ofMeaning m)) = m.setting [name] .unset)
    (hstart : part .unset = none) (hm : IsRecord (·.isSome) (Accesses.known (·.isSome)) m)
    (v : Vendor) :
    .ofText? (part ((Accesses.ofMeaning m).of v)) = m.setting [v.name, name] .unset := by
  have hunset : Setting.unset = Setting.ofText? (part .unset) := by
    rw [hstart]
    rfl
  rw [setting_cons, hunset]
  rw [hunset] at hpart
  -- the fields differ in the vendor alone
  cases v
  all_goals
    refine get_assigned (fun a : Accesses => Setting.ofText? (part (a.of _))) _ _ rfl
      (fun m hm _ => ?_) ?_ hm .unset
    · exact hpart m hm
    · simp [Accesses.known, Accesses.of, Vendor.name]

namespace Settings

/-- A part of an access, in the document of the settings. -/
theorem part_ofMeaning (part : Access → Option String) (name : String)
    (hpart : ∀ m, IsRecord (·.isSome) Access.known m →
      .ofText? (part (Access.ofMeaning m)) = m.setting [name] .unset)
    (hstart : part .unset = none) (hm : IsSettings (·.isSome) m) (v : Vendor) :
    .ofText? (part ((Settings.ofMeaning m).accesses.of v)) =
      m.setting ["providers", v.name, name] .unset := by
  have hunset : Setting.unset = Setting.ofText? (part (standard.accesses.of v)) := by
    cases v <;> exact (congrArg Setting.ofText? hstart).symm
  rw [setting_cons]
  have hget := get_assigned (fun s : Settings => Setting.ofText? (part (s.accesses.of v)))
    (fun m => m.setting [v.name, name] .unset) "providers" rfl
    (fun m hm _ => Accesses.of_ofMeaning part name hpart hstart hm v) (by simp [known]) hm .standard
  rw [← hunset] at hget
  exact hget

/-- A document says at every leaf what stands at its place, and leaves the others as they are. -/
theorem get_ofMeaning (hm : IsSettings (·.isSome) m) (leaf : Leaf) :
    (ofMeaning m).get leaf = m.setting leaf.place (standard.get leaf) := by
  cases leaf with
  | model =>
    rw [Leaf.place, setting_cons]
    refine get_assigned (fun s => s.get .model) _ "model" rfl ?_ ?_ hm .standard
    · exact fun m hm s => (Setting.of_isText hm).symm
    · simp [known, get]
  | interpreter =>
    rw [Leaf.place, setting_cons]
    refine get_assigned (fun s => s.get .interpreter) _ "python" rfl ?_ ?_ hm .standard
    · exact fun m hm s => (Setting.of_isText hm).symm
    · simp [known, get]
  | cacheDirectory =>
    rw [Leaf.place, setting_cons]
    refine get_assigned (fun s => s.get .cacheDirectory) _ "cache_dir" rfl ?_ ?_ hm .standard
    · exact fun m hm s => (Setting.of_isOptionalText hm).symm
    · simp [known, get]
  | temporaryDirectory =>
    rw [Leaf.place, setting_cons]
    refine get_assigned (fun s => s.get .temporaryDirectory) _ "temp_dir" rfl ?_ ?_ hm .standard
    · exact fun m hm s => (Setting.of_isOptionalText hm).symm
    · simp [known, get]
  | timeout =>
    rw [Leaf.place, setting_cons]
    refine get_assigned (fun s => s.get .timeout) _ "request_timeout_secs" rfl ?_ ?_ hm .standard
    · exact fun m hm s => (Setting.of_isCount hm).symm
    · simp [known, get]
  | key v =>
    have hstart : standard.get (.key v) = .unset := by cases v <;> rfl
    rw [hstart]
    exact part_ofMeaning (·.key) "api_key" (fun m hm => Access.key_ofMeaning hm) rfl hm v
  | address v =>
    have hstart : standard.get (.address v) = .unset := by cases v <;> rfl
    rw [hstart]
    exact part_ofMeaning (·.address) "api_base" (fun m hm => Access.address_ofMeaning hm) rfl hm v

/-! ## The environment -/

variable {lookUp lookUp' : String → Option String} {s s' : Settings}

/-- Settings that are the same at every leaf are the same. -/
theorem eq_of_get (h : ∀ leaf, s.get leaf = s'.get leaf) : s = s' := by
  have haccess : ∀ v, s.accesses.of v = s'.accesses.of v := by
    intro v
    have hkey := Setting.ofText?_injective (h (.key v))
    have haddress := Setting.ofText?_injective (h (.address v))
    cases hs : s.accesses.of v
    cases hs' : s'.accesses.of v
    rw [hs, hs'] at hkey haddress
    exact Access.mk.injEq _ _ _ _ ▸ ⟨hkey, haddress⟩
  obtain ⟨model, interpreter, cache, temporary, timeout, ⟨gemini, openAi, anthropic, router⟩⟩ := s
  obtain ⟨model', interpreter', cache', temporary', timeout',
    ⟨gemini', openAi', anthropic', router'⟩⟩ := s'
  obtain rfl : model = model' := Setting.text.inj (h .model)
  obtain rfl : interpreter = interpreter' := Setting.text.inj (h .interpreter)
  obtain rfl : cache = cache' := Setting.ofText?_injective (h .cacheDirectory)
  obtain rfl : temporary = temporary' := Setting.ofText?_injective (h .temporaryDirectory)
  obtain rfl : timeout = timeout' := Setting.number.inj (h .timeout)
  obtain rfl : gemini = gemini' := haccess .gemini
  obtain rfl : openAi = openAi' := haccess .openAi
  obtain rfl : anthropic = anthropic' := haccess .anthropic
  obtain rfl : router = router' := haccess .openRouter
  rfl

theorem text_override (value : Option String) (previous : String) :
    Setting.text (override value previous) =
      match value with
      | some text => .text text
      | none => .text previous := by
  cases value <;> rfl

theorem ofText?_or (value previous : Option String) :
    Setting.ofText? (value.or previous) =
      match value with
      | some text => .text text
      | none => .ofText? previous := by
  cases value <;> rfl

/-- The environment sets each leaf to what it gives it, and leaves the others as they are. -/
theorem get_withEnvironment (s : Settings) (lookUp : String → Option String) (leaf : Leaf) :
    (s.withEnvironment lookUp).get leaf =
      match fromEnvironment? lookUp leaf with
      | some text => .text text
      | none => s.get leaf := by
  have hone : ∀ {leaf name}, Leaf.overrides leaf = [name] →
      fromEnvironment? lookUp leaf = inked lookUp name := by
    intro leaf name h
    rw [fromEnvironment?, h, List.findSome?_singleton]
    rfl
  match leaf with
  | .model | .interpreter =>
    rw [hone rfl]
    exact text_override _ _
  | .cacheDirectory | .temporaryDirectory =>
    rw [hone rfl]
    exact ofText?_or _ _
  | .timeout => rfl
  | .key .gemini =>
    have htwo : fromEnvironment? lookUp (.key .gemini) =
        (inked lookUp "GEMINI_API_KEY").or (inked lookUp "GOOGLE_API_KEY") := by
      show (["GEMINI_API_KEY"] ++ ["GOOGLE_API_KEY"]).findSome? (inked lookUp) = _
      rw [List.findSome?_append, List.findSome?_singleton, List.findSome?_singleton]
    rw [htwo]
    exact ofText?_or _ _
  | .key .openAi | .key .anthropic | .key .openRouter | .address .openAi =>
    rw [hone rfl]
    exact ofText?_or _ _
  | .address .gemini | .address .anthropic | .address .openRouter => rfl

/-- Settings that come from the environment are not changed by it once more. -/
theorem withEnvironment_withEnvironment (s : Settings) (lookUp : String → Option String) :
    (s.withEnvironment lookUp).withEnvironment lookUp = s.withEnvironment lookUp := by
  refine eq_of_get fun leaf => ?_
  rw [get_withEnvironment, get_withEnvironment]
  cases fromEnvironment? lookUp leaf <;> rfl

theorem withEnvironment_congr (h : ∀ name ∈ Leaf.allVariables, lookUp name = lookUp' name)
    (s : Settings) : s.withEnvironment lookUp = s.withEnvironment lookUp' := by
  refine eq_of_get fun leaf => ?_
  have hsame : fromEnvironment? lookUp leaf = fromEnvironment? lookUp' leaf := by
    rw [fromEnvironment?, fromEnvironment?, ← List.head?_filterMap, ← List.head?_filterMap]
    refine congrArg List.head? (List.filterMap_congr fun name hname => ?_)
    rw [h name (leaf.overrides_subset name hname)]
  rw [get_withEnvironment, get_withEnvironment, hsame]

theorem fromEnvironment?_fixed {leaf : Leaf} (h : leaf ∈ Leaf.fixed) :
    fromEnvironment? lookUp leaf = none := by
  simp only [Leaf.fixed, List.mem_cons, List.not_mem_nil, or_false] at h
  rcases h with rfl | rfl | rfl | rfl <;> rfl

/-! ## Settings of a run -/

/-- What stands at a path: nothing, or a document with blanks around it. -/
inductive Says (t : Tree) (cwd : Location) (path : String) : Option Meaning → Prop where
  | missing (h : stat t cwd path = .error (.system .noEntry)) : Says t cwd path none
  | document {text : String} {m : Meaning} {spelled : List Char} (before behind : Blanks)
      (hread : Files.readText t cwd path = .ok text)
      (htext : text.toList = before.1 ++ (spelled ++ behind.1)) (hspelled : Spells m spelled) :
      Says t cwd path (some m)

variable {t : Tree} {cwd : Location} {path : String} {env : Environment} {file : Option Meaning}

theorem ofFile_said (hsaid : Says t cwd path file)
    (hfile : ∀ m, file = some m → IsSettings (·.isSome) m) :
    ∃ s, ofFile t cwd path = .ok s ∧ ∀ leaf, s.get leaf = fromFile file leaf := by
  cases hsaid with
  | missing h =>
    refine ⟨standard, ?_, fun leaf => rfl⟩
    simp only [ofFile, Files.readText, readBytes, h, IoError.isNotFound, if_true]
  | @document text m spelled before behind hread htext hspelled =>
    have hm := hfile m rfl
    refine ⟨ofMeaning m, ?_, fun leaf => ?_⟩
    · simp only [ofFile, hread, parse_spelled hm hspelled before behind htext]
    · rw [get_ofMeaning hm, Meaning.setting, fromFile, Option.bind_some]
      cases m.at? leaf.place <;> rfl

theorem load_of_ofFile {u : Settings} (h : ofFile t cwd (filePath env) = .ok u) :
    load t cwd env = .ok (u.withEnvironment fun name => env.lookup name) := by
  unfold load
  rw [h]

/-- The settings of a run are layered, each leaf for itself: the environment, where one of the
variables of the leaf is set and not blank; else the file, where it says something at the place of
the leaf; else the standard. The leaves without a variable are those of the file, the key of the
first vendor is looked for under two names in their order, no other variable makes a difference but
for the path of the file, and a second override changes nothing. -/
theorem settings_come_in_layers (hsaid : Says t cwd (filePath env) file)
    (hfile : ∀ m, file = some m → IsSettings (·.isSome) m) :
    ∃ s, load t cwd env = .ok s ∧
      (∀ leaf, s.get leaf = layered (fun name => env.lookup name) file leaf) ∧
      (∀ leaf ∈ Leaf.fixed, s.get leaf = fromFile file leaf) ∧
      (∀ key, env.lookup "GEMINI_API_KEY" = some key → Text.hasInk key = true →
        s.accesses.gemini.key = some key) ∧
      (∀ key, (∀ blank, env.lookup "GEMINI_API_KEY" = some blank → Text.hasInk blank = false) →
        env.lookup "GOOGLE_API_KEY" = some key → Text.hasInk key = true →
        s.accesses.gemini.key = some key) ∧
      (∀ env', filePath env' = filePath env →
        (∀ name ∈ Leaf.allVariables, env'.lookup name = env.lookup name) →
        load t cwd env' = .ok s) ∧
      s.withEnvironment (fun name => env.lookup name) = s := by
  obtain ⟨u, hload, hget⟩ := ofFile_said hsaid hfile
  have hlayered : ∀ leaf, (u.withEnvironment fun name => env.lookup name).get leaf =
      layered (fun name => env.lookup name) file leaf := by
    intro leaf
    rw [get_withEnvironment, layered, hget]
  refine ⟨u.withEnvironment fun name => env.lookup name, ?_, hlayered, fun leaf hleaf => ?_,
    fun key hkey hink => ?_, fun key hblank hkey hink => ?_, fun env' hpath hsame => ?_,
    withEnvironment_withEnvironment u fun name => env.lookup name⟩
  · exact load_of_ofFile hload
  · rw [hlayered, layered, fromEnvironment?_fixed hleaf]
  · have hinked : inked (fun name => env.lookup name) "GEMINI_API_KEY" = some key := by
      rw [inked, hkey, Option.filter_some, if_pos hink]
    simp only [withEnvironment, hinked, Option.some_or]
  · have hnone : inked (fun name => env.lookup name) "GEMINI_API_KEY" = none := by
      rw [inked, Option.filter_eq_none_iff]
      intro blank h
      rw [hblank blank h]
      exact Bool.false_ne_true
    have hinked : inked (fun name => env.lookup name) "GOOGLE_API_KEY" = some key := by
      rw [inked, hkey, Option.filter_some, if_pos hink]
    simp only [withEnvironment, hnone, hinked, Option.none_or, Option.some_or]
  · rw [← hpath] at hload
    rw [load_of_ofFile hload]
    exact congrArg Except.ok (withEnvironment_congr hsame u)

/-- A tree with a settings file. -/
def written (text : String) : Tree :=
  ⟨[(["c"], .directory), (["llmexec", "c"], .directory),
    (["config.json", "llmexec", "c"], .file ⟨Text.bytesOf text, 0, false⟩)]⟩

/-- A document that says where one vendor is and which model to ask. -/
def sparse : String :=
  "\x7b\"later\":[1e999],\"providers\":\x7b\"gemini\":\x7b\"api_base\":\"b\"\x7d\x7d," ++
    "\"model\":\"m\"\x7d"

def sparseMembers : List Member :=
  [ .tight (.plain "later" (by decide)) (.list [.number]) "[1e999]",
    .tight (.plain "providers" (by decide))
      (.object [(some "gemini", .object [(some "api_base", .string (some "b"))])])
      "\x7b\"gemini\":\x7b\"api_base\":\"b\"\x7d\x7d",
    .tight (.plain "model" (by decide)) (.string (some "m")) "\"m\"" ]

def sparseMeaning : Meaning := .object (sparseMembers.map (·.meaning))

theorem spells_sparse : Spells sparseMeaning sparse.toList := by
  have hnumber : Spells .number "1e999".toList :=
    @Spells.number [] ['1'] [] ['e', '9', '9', '9'] (by decide)
      ⟨List.all_eq_true.1 rfl, by decide⟩ .none
      (@Exponent.digits 'e' [] ['9', '9', '9'] (by decide) (by decide) (by decide)
        (List.all_eq_true.1 rfl))
      (by decide)
  have hlater : Spells (.list [.number]) "[1e999]".toList :=
    @Spells.list [⟨.none, .number, "1e999".toList, .none⟩] .none (by simpa using hnumber)
  have hmodel : Spells (.string (some "m")) "\"m\"".toList := .string (.plain "m" (by decide))
  have hbase : Spells (.string (some "b")) "\"b\"".toList := .string (.plain "b" (by decide))
  have hgemini : Spells (.object [(some "api_base", .string (some "b"))])
      "\x7b\"api_base\":\"b\"\x7d".toList :=
    @Spells.object [.tight (.plain "api_base" (by decide)) (.string (some "b")) "\"b\""] .none
      (by simpa [Member.tight] using hbase)
  have hproviders : Spells
      (.object [(some "gemini", .object [(some "api_base", .string (some "b"))])])
      "\x7b\"gemini\":\x7b\"api_base\":\"b\"\x7d\x7d".toList :=
    @Spells.object [.tight (.plain "gemini" (by decide))
      (.object [(some "api_base", .string (some "b"))]) "\x7b\"api_base\":\"b\"\x7d"] .none
      (by simpa [Member.tight] using hgemini)
  have hmembers : ∀ m ∈ sparseMembers, Spells m.value.meaning m.value.text := by
    simp only [sparseMembers, List.forall_mem_cons]
    exact ⟨hlater, hproviders, hmodel, nofun⟩
  exact @Spells.object sparseMembers .none hmembers

theorem isSettings_sparse : IsSettings (·.isSome) sparseMeaning := by
  have hgemini : IsRecord (·.isSome) Access.known
      (.object [(some "api_base", .string (some "b"))]) :=
    ⟨_, rfl, by simp, by simp [Access.known], by simp [Access.known, IsOptionalText, IsText]⟩
  have hproviders : IsRecord (·.isSome) (Accesses.known (·.isSome))
      (.object [(some "gemini", .object [(some "api_base", .string (some "b"))])]) :=
    ⟨_, rfl, by simp, by simp [Accesses.known], by simpa [Accesses.known] using hgemini⟩
  refine ⟨_, rfl, ?_, ?_, ?_⟩
  · decide
  · simp [known, sparseMembers, Member.tight, Member.meaning, Marked.plain]
  · simp [known, sparseMembers, Member.tight, Member.meaning, Marked.plain, IsText]
    exact hproviders

/-- An environment with a key under the second of two names. -/
def second : Environment :=
  [("XDG_CONFIG_HOME", "/c"), ("GEMINI_API_KEY", " "), ("GOOGLE_API_KEY", " k"),
    ("LLMEXEC_PYTHON", "py")]

theorem says_sparse : Says (written sparse) [] (filePath second) (some sparseMeaning) := by
  have hread : Files.readText (written sparse) [] (filePath second) = .ok sparse := by
    decide
  exact .document .none .none hread (List.append_nil _).symm spells_sparse

/-- Each leaf of a file that leaves most of them out, under variables that set a few. -/
theorem a_sparse_file_is_layered :
    Says (written sparse) [] (filePath second) (some sparseMeaning) ∧
      IsSettings (·.isSome) sparseMeaning ∧
      ∃ s, load (written sparse) [] second = .ok s ∧ s.get .model = .text "m" ∧
        s.get .interpreter = .text "py" ∧ s.get .timeout = .number 120 ∧
        s.get (.key .gemini) = .text " k" ∧ s.get (.address .gemini) = .text "b" ∧
        s.get (.key .openAi) = .unset := by
  obtain ⟨s, hload, hget, -⟩ := settings_come_in_layers says_sparse fun m h => by
    cases h
    exact isSettings_sparse
  refine ⟨says_sparse, isSettings_sparse, s, hload, ?_, ?_, ?_, ?_, ?_, ?_⟩
  all_goals
    rw [hget]
    rfl

/-- A name that is half of a pair, and so no text. -/
def unpaired : Marked where
  text := none
  body := "\\ud800".toList
  written := .numbered rfl .nil
  meant t := by
    refine ⟨nofun, fun h => ?_⟩
    have hnone : (readString ("\\ud800".toList ++ ['"'])).toOption = none := by decide
    rw [readString_spelled h []] at hnone
    cases hnone

def unpairedMember : Member := ⟨.none, unpaired, .none, ⟨.none, .natural 1, ['1'], .none⟩⟩

def unpairedFile : String := "\x7b\"\\ud800\":1\x7d"

def bare : Environment := [("XDG_CONFIG_HOME", "/c")]

/-- A field that nobody asked for is refused if its name is no text. -/
theorem an_unpaired_name_is_refused :
    Says (written unpairedFile) [] (filePath bare) (some (.object [(none, .natural 1)])) ∧
      IsSettings (fun _ => True) (.object [(none, .natural 1)]) ∧
      ∀ s, load (written unpairedFile) [] bare ≠ .ok s := by
  have hone : Spells (.natural 1) ['1'] :=
    @Spells.natural ['1'] ⟨List.all_eq_true.1 rfl, by decide⟩
  have hspells : Spells (.object [(none, .natural 1)]) unpairedFile.toList :=
    @Spells.object [unpairedMember] .none (by simpa [unpairedMember] using hone)
  have hread : Files.readText (written unpairedFile) [] (filePath bare) = .ok unpairedFile := by
    decide
  have hsettings : IsSettings (fun _ => True) (.object [(none, .natural 1)]) :=
    ⟨_, rfl, by simp, by simp [known], by simp [known]⟩
  refine ⟨.document .none .none hread (List.append_nil _).symm hspells, hsettings,
    fun s hload => ?_⟩
  have herror : load (written unpairedFile) [] bare = .error (.settings
      ("Invalid config file /c/llmexec/config.json: " ++
        "unexpected end of hex escape at line 1 column 9")) := by decide +kernel
  rw [herror] at hload
  cases hload

end Settings

end PromptRunner
