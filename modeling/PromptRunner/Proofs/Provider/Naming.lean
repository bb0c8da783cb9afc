import PromptRunner.Proofs.Provider.Bodies
import PromptRunner.Proofs.Web.Addresses

/-!
# Which model the server is asked for

A server learns the name of the model from what it is sent. Three of the vendors have it in the
document, as a text in quotes, and a text is parsed to what was written. The fourth has it in the
path of the address, behind the base and before a final word, where a server takes what the percent
signs stand for (`Asks`). The name is put there as it is, and the address is then read as one.

So the path says another name if anything in the name means something there: a character that is
dropped or that ends the path, a backslash, a segment of dots, a percent sign with two digits. What
is found is that nothing else goes wrong (`pathNames_iff`). One half of it is the path as it is
written; for the other half the bytes are counted. Every stage of the reading can only lose some,
and the path that would name the model has as many as the address was given, so no stage lost any.
-/

namespace PromptRunner

namespace Provider

open PromptRunner.Json PromptRunner.Text PromptRunner.Web

variable {p p' : Provider} {q q' : Query} {r : WebRequest} {done : List (List Char)}

/-! ## Names in a path -/

/-- A name that stays as it is in the path of an address: its characters are seen there and lean no
other way, it has no segments of dots in front of a slash, and no percent sign in it stands for
anything. -/
structure KeptInPath (name : List Char) : Prop where
  seen : ∀ c ∈ name, isSeen c = true
  forward : '\\' ∉ name
  plain : ∀ segment ∈ (cutAt '/' name).dropLast, isDotted segment = false
  literal : percentDecode name = encode name

/-- What stands in front of a name, behind the slash of the base. -/
def pathFront : List Char := "models/".toList

/-- What stands behind a name. -/
def pathBack : List Char := ":generateContent".toList

/-- A path has a text that stands for a name at the place of names, where `base` is the path of the
base. -/
def PathNames (base path name : List Char) : Prop :=
  ∃ written, path = base ++ pathFront ++ written ++ pathBack ∧ percentDecode written = encode name

theorem encode_append (s t : List Char) : encode (s ++ t) = encode s ++ encode t :=
  List.flatMap_append

theorem encode_injective {s t : List Char} (h : encode s = encode t) : s = t := by
  have hdecoded := congrArg decode? h
  rw [decode?_encode, decode?_encode] at hdecoded
  exact Option.some.inj hdecoded

/-- A path names one model. -/
theorem PathNames.unique {base path : List Char} {name name' : List Char}
    (h : PathNames base path name) (h' : PathNames base path name') : name = name' := by
  obtain ⟨written, rfl, hwritten⟩ := h
  obtain ⟨written', hpath, hwritten'⟩ := h'
  obtain rfl : written = written' := by
    rw [List.append_assoc, List.append_assoc (base ++ pathFront)] at hpath
    exact List.append_cancel_right (List.append_cancel_left hpath)
  exact encode_injective (hwritten.symm.trans hwritten')

theorem length_le_of_isDotted {segment : List Char} (h : isDotted segment = true) :
    segment.length ≤ 6 := by
  have hlower : ∀ s : List Char, segment.map Char.toLower = s → segment.length = s.length := by
    rintro s rfl
    rw [List.length_map]
  simp only [isDotted, isDoubleDot, isDot, Bool.or_eq_true, List.contains_iff_mem,
    List.mem_cons, List.not_mem_nil, or_false, decide_eq_true_eq] at h
  rcases h with (h | h | h | h) | h | h <;> (rw [hlower _ h]; decide)

/-- The segments of the text behind the base are those of the name, as far as dots go. -/
theorem plain_iff (name : List Char) :
    (∀ segment ∈ cutAt '/' (pathFront ++ name ++ pathBack), isDotted segment = false) ↔
      ∀ segment ∈ (cutAt '/' name).dropLast, isDotted segment = false := by
  obtain ⟨front, last, hname, hback⟩ := exists_last_piece name pathBack (by decide)
  have hcut : cutAt '/' (pathFront ++ name ++ pathBack) =
      "models".toList :: (front ++ [last ++ pathBack]) := by
    rw [List.append_assoc, ← hback]
    exact cutAt_append '/' "models".toList (name ++ pathBack)
  -- the last of them is too long to be made of dots
  have hlast : isDotted (last ++ pathBack) = false := by
    cases hdots : isDotted (last ++ pathBack) with
    | false => rfl
    | true =>
      have hlength := length_le_of_isDotted hdots
      rw [List.length_append] at hlength
      exact absurd (Nat.le_trans (Nat.le_add_left _ _) hlength) (by decide)
  rw [hcut, hname, List.dropLast_concat, List.forall_mem_cons, List.forall_mem_append,
    List.forall_mem_singleton]
  exact ⟨fun h => h.2.1, fun h => ⟨by decide, h, hlast⟩⟩

theorem all_isSeen_iff (name : List Char) :
    (∀ c ∈ pathFront ++ name ++ pathBack, isSeen c = true) ↔ ∀ c ∈ name, isSeen c = true := by
  have hfront : ∀ c ∈ pathFront, isSeen c = true := List.all_eq_true.1 (by decide)
  have hback : ∀ c ∈ pathBack, isSeen c = true := List.all_eq_true.1 (by decide)
  rw [List.forall_mem_append, List.forall_mem_append]
  exact ⟨fun h => h.1.2, fun h => ⟨⟨hfront, h⟩, hback⟩⟩

theorem percentEncode_behind (name : List Char) :
    percentEncode pathSet (pathFront ++ name ++ pathBack) =
      pathFront ++ percentEncode pathSet name ++ pathBack := by
  simp only [percentEncode, List.flatMap_append]
  rfl

/-- A path that names a model stands for what the address was given. -/
theorem PathNames.stands {base path name : List Char}
    (h : PathNames (base ++ ['/']) path name) :
    percentDecode path =
      percentDecode base ++ encode ('/' :: (pathFront ++ name ++ pathBack)) := by
  obtain ⟨written, rfl, hwritten⟩ := h
  have hfront : pathFront = "models".toList ++ ['/'] := by decide
  have hback : pathBack = ':' :: "generateContent".toList := by decide
  have hmodels : percentDecode "models".toList = encode "models".toList := by decide
  have hword : percentDecode "generateContent".toList = encode "generateContent".toList := by
    decide
  have hcolon : IsBarrier ':' := ⟨by decide, rfl⟩
  have hparts : base ++ ['/'] ++ pathFront ++ written ++ pathBack =
      base ++ '/' :: ("models".toList ++ '/' :: (written ++ ':' :: "generateContent".toList)) := by
    rw [hfront, hback]
    simp only [List.append_assoc, List.cons_append, List.nil_append]
  rw [hparts, percentDecode_append isBarrier_slash, percentDecode_append isBarrier_slash,
    percentDecode_append hcolon, hwritten, hmodels, hword, hfront, hback]
  simp only [encode_cons, encode_append, List.append_assoc]
  rfl

/-- A path whose segments have no dots names what the text of it stands for. -/
theorem pathNames_of_plain {s name : List Char}
    (hplain : ∀ segment ∈ cutAt '/' (pathFront ++ s ++ pathBack), isDotted segment = false) :
    PathNames (slashed done.reverse ++ ['/'])
        (slashed (resolveDots done (cutAt '/' (pathFront ++ s ++ pathBack)))) name ↔
      percentDecode s = encode name := by
  have hpath : slashed (resolveDots done (cutAt '/' (pathFront ++ s ++ pathBack))) =
      slashed done.reverse ++ ['/'] ++ pathFront ++ percentEncode pathSet s ++ pathBack := by
    rw [slashed_of_plain hplain, percentEncode_behind]
    simp only [List.append_assoc, List.cons_append, List.nil_append]
  rw [hpath, ← percentDecode_percentEncode harmless_pathSet s]
  constructor
  · rintro ⟨written, heq, hwritten⟩
    rw [List.append_cancel_left (List.append_cancel_right heq), hwritten]
  · exact fun h => ⟨_, rfl, h⟩

/-- The text behind a base comes into the path as a name of the model if and only if the name is
kept. -/
theorem pathNames_iff (done : List (List Char)) (name : List Char) :
    PathNames (slashed done.reverse ++ ['/'])
        (slashed (resolveDots done (cutAt '/' (seen (pathFront ++ name ++ pathBack))))) name ↔
      KeptInPath name := by
  have hforward : (pathFront ++ name ++ pathBack).map forward =
      pathFront ++ name.map forward ++ pathBack := by
    rw [List.map_append, List.map_append]
    rfl
  constructor
  · intro h
    -- the bytes are as many as were given, so no stage of the reading has lost one
    have hstands := congrArg List.length h.stands
    obtain ⟨hseen, hall⟩ := seen_within (pathFront ++ name ++ pathBack)
    obtain ⟨hdots, hplain⟩ :=
      resolveDots_within done (cutAt '/' (seen (pathFront ++ name ++ pathBack)))
    simp only [span, slashed_cutAt, encode_cons, List.length_append] at hstands hdots hplain
    have hall := hall (by omega)
    have hplain := hplain (by omega)
    rw [seen_of_isSeen hall, hforward] at h hplain
    -- the name is there but for its backslashes, and has as many bytes without them
    have hliteral := (pathNames_of_plain hplain).1 h
    have hown := (percentDecode_within (name.map forward)).2
      (by rw [hliteral, length_encode_forward])
    have hname : name.map forward = name := encode_injective (hown.symm.trans hliteral)
    rw [hname] at hplain hliteral
    exact ⟨(all_isSeen_iff name).1 hall, map_forward_eq_self_iff.1 hname, (plain_iff name).1 hplain,
      hliteral⟩
  · intro h
    rw [seen_of_isSeen ((all_isSeen_iff name).2 h.seen), hforward,
      map_forward_eq_self_iff.2 h.forward]
    exact (pathNames_of_plain ((plain_iff name).2 h.plain)).2 h.literal

/-! ## What is asked for -/

/-- What is sent asks for a model by its name: in the path, where the vendor takes it from there,
and otherwise in the document. -/
def Asks (p : Provider) (r : WebRequest) (name : String) : Prop :=
  match p.vendor with
  | .gemini => ∃ base, Url.parse? (p.address ++ "/") = some base ∧
      PathNames base.path r.url.path name.toList
  | .anthropic | .openAi | .openRouter =>
    ∃ doc, Value.parse (String.ofList r.body) = .ok doc ∧ doc.member? "model" = some (.string name)

/-- What is sent asks for one model. -/
theorem Asks.unique {name name' : String} (hvendor : p'.vendor = p.vendor)
    (haddress : p'.address = p.address) (h : p.Asks r name) (h' : p'.Asks r name') :
    name = name' := by
  have hdoc : ∀ {name name' : String},
      (∃ doc, Value.parse (String.ofList r.body) = .ok doc ∧
        doc.member? "model" = some (.string name)) →
      (∃ doc, Value.parse (String.ofList r.body) = .ok doc ∧
        doc.member? "model" = some (.string name')) → name = name' := by
    rintro name name' ⟨doc, hparse, hname⟩ ⟨doc', hparse', hname'⟩
    obtain rfl : doc = doc' := Except.ok.inj (hparse.symm.trans hparse')
    exact Value.string.inj (Option.some.inj (hname.symm.trans hname'))
  unfold Asks at h h'
  rw [hvendor, haddress] at h'
  cases hv : p.vendor with
  | gemini =>
    rw [hv] at h h'
    obtain ⟨base, hbase, hpath⟩ := h
    obtain ⟨base', hbase', hpath'⟩ := h'
    obtain rfl : base = base' := Option.some.inj (hbase.symm.trans hbase')
    exact String.toList_injective (hpath.unique hpath')
  | anthropic | openAi | openRouter =>
    rw [hv] at h h'
    exact hdoc h h'

/-- What is sent goes to the address of the question, with a path that no key changes. -/
theorem path_of_prepare (h : p.prepare q = .ok r) :
    ∃ url, Url.parse? (p.addressFor q) = some url ∧ r.url.path = url.path := by
  have hkey : ∀ key url, (p.withKey key url).path = url.path := by
    intro key url
    unfold withKey
    split <;> rfl
  unfold prepare prepareBy at h
  split at h
  · cases h
  · next key _ =>
    split at h
    · next hweb =>
      cases h
      unfold Web.prepare at hweb
      split at hweb
      · cases hweb
      · next url hurl =>
        split at hweb
        · cases hweb
        · split at hweb
          · cases hweb
          · split at hweb <;> cases hweb
            exact ⟨url, hurl, hkey key url⟩
    · cases h

theorem asks_in_path_iff (hvendor : p.vendor = .gemini) (hbase : ∃ u, IsBase p.address u)
    (h : p.prepare q = .ok r) :
    p.Asks r (p.modelFor q) ↔ KeptInPath (p.modelFor q).toList := by
  obtain ⟨u, hu⟩ := hbase
  obtain ⟨done, hbehind⟩ := hu.parse?_behind
  obtain ⟨url, hurl, hpath⟩ := path_of_prepare h
  -- the base is what nothing is put behind
  obtain ⟨v, hv, hnothing⟩ := hbehind "" nofun
  obtain rfl : u = v := by
    rw [String.append_empty, hu.parsed] at hv
    exact Option.some.inj hv
  have hroot : u.path = slashed done.reverse ++ ['/'] := by
    rw [hnothing]
    exact slashed_of_plain (by decide)
  -- and the question's address has the name behind it
  have haddress : p.addressFor q =
      p.address ++ "/" ++ ("models/" ++ p.modelFor q ++ ":generateContent") := by
    unfold addressFor
    rw [hvendor, show "/models/" = "/" ++ "models/" from rfl]
    simp only [String.append_assoc]
  have hback : ("models/" ++ p.modelFor q ++ ":generateContent").toList =
      pathFront ++ (p.modelFor q).toList ++ pathBack := by
    simp only [String.toList_append]
    rfl
  have hended : IsEnded ("models/" ++ p.modelFor q ++ ":generateContent").toList := by
    rw [hback, IsEnded, List.getLast?_append, show pathBack.getLast? = some 't' from rfl]
    rintro c ⟨⟩
    rfl
  obtain ⟨v, hv, hnamed⟩ := hbehind _ hended
  rw [← haddress, hurl] at hv
  obtain rfl := Option.some.inj hv
  rw [hback] at hnamed
  have hiff := pathNames_iff done (p.modelFor q).toList
  rw [← hnamed, ← hpath, ← hroot] at hiff
  rw [← hiff]
  unfold Asks
  rw [hvendor]
  constructor
  · rintro ⟨base, hbase, hpath⟩
    obtain rfl : u = base := Option.some.inj (hu.parsed.symm.trans hbase)
    exact hpath
  · exact fun hpath => ⟨u, hu.parsed, hpath⟩

theorem asks_in_document (hvendor : p.vendor ≠ .gemini) (ho : q.options.Proper)
    (h : p.prepare q = .ok r) : p.Asks r (p.modelFor q) := by
  unfold Asks
  rw [body_of_prepare h]
  unfold bodyFor
  cases hv : p.vendor with
  | gemini => exact absurd hv hvendor
  | anthropic => exact Messages.body_names _ ho
  | openAi | openRouter => exact ChatCompletions.body_names _ ho

/-- What is sent asks for the model that the question is for, unless it stands in a path that does
not keep its name. -/
theorem asks_modelFor_iff (ho : q.options.Proper) (hbase : ∃ u, IsBase p.address u)
    (h : p.prepare q = .ok r) :
    p.Asks r (p.modelFor q) ↔ (p.vendor = .gemini → KeptInPath (p.modelFor q).toList) := by
  by_cases hvendor : p.vendor = .gemini
  · rw [asks_in_path_iff hvendor hbase h, forall_prop_of_true hvendor]
  · exact iff_of_true (asks_in_document hvendor ho h) fun hgemini => absurd hgemini hvendor

/-- A question that is for the model its provider was built for. -/
def IsFor (model : String) (q : Query) : Prop :=
  ∀ name, q.model = some name → name = Vendor.wireModel model

theorem modelFor_ofSettings {s : Settings} {model : String} (hq : IsFor model q) :
    (ofSettings s model).modelFor q = Vendor.wireModel model := by
  unfold modelFor
  cases hname : q.model with
  | none => rfl
  | some name => exact hq name hname

/-- A provider that is built for a model asks its server for that model, exactly if the name is
kept wherever it stands in a path. Two models with two names are then asked for in two ways. -/
theorem named_model_is_asked_iff {s : Settings} {model : String}
    (hq : IsFor model q) (ho : q.options.Proper)
    (hbase : ∃ u, IsBase (ofSettings s model).address u)
    (h : (ofSettings s model).prepare q = .ok r) :
    ((ofSettings s model).Asks r (Vendor.wireModel model) ↔
        (Vendor.ofModel model = .gemini → KeptInPath (Vendor.wireModel model).toList)) ∧
      ∀ other q' r', IsFor other q' → q'.options.Proper →
        (ofSettings s other).prepare q' = .ok r' → Vendor.ofModel other = Vendor.ofModel model →
        (Vendor.ofModel model = .gemini → KeptInPath (Vendor.wireModel model).toList ∧
          KeptInPath (Vendor.wireModel other).toList) →
        Vendor.wireModel other ≠ Vendor.wireModel model → r' ≠ r := by
  have hiff := asks_modelFor_iff ho hbase h
  rw [modelFor_ofSettings hq] at hiff
  refine ⟨hiff, ?_⟩
  rintro other q' r hq' ho' h' hvendor hkept hne rfl
  have haddress : (ofSettings s other).address = (ofSettings s model).address := by
    simp only [ofSettings, hvendor]
    rfl
  have hiff' := asks_modelFor_iff ho' (haddress ▸ hbase) h'
  rw [modelFor_ofSettings hq'] at hiff'
  have hasks := hiff.2 fun hgemini => (hkept hgemini).1
  have hasks' := hiff'.2 fun hgemini => (hkept (hvendor.symm.trans hgemini)).2
  exact hne (hasks.unique hvendor haddress hasks').symm

/-- Settings with a key and an address for the vendor whose names stand in the path. -/
def nearby : Settings :=
  { Settings.standard with
    accesses := { Accesses.unset with gemini := ⟨some "k", some "http://127.0.0.1:9/v1/"⟩ } }

/-- A question without a word. -/
def wordless : Query := ⟨[], none, ⟨none, none⟩⟩

theorem proper_wordless : wordless.options.Proper := ⟨nofun, nofun⟩

theorem isFor_wordless (model : String) : IsFor model wordless := nofun

/-- A path that is computed is the path of what is sent. -/
theorem exists_prepare {path : List Char}
    (h : (p.prepare q).toOption.map (·.url.path) = some path) :
    ∃ r, p.prepare q = .ok r ∧ r.url.path = path := by
  obtain ⟨r, hr, hpath⟩ := Option.map_eq_some_iff.1 h
  cases hprepare : p.prepare q with
  | error e =>
    rw [hprepare] at hr
    cases hr
  | ok r' =>
    rw [hprepare] at hr
    obtain rfl := Option.some.inj hr
    exact ⟨r', rfl, hpath⟩

theorem a_tuned_model_is_asked :
    ∃ r, (ofSettings nearby "gemini/tuned/ä 5%").prepare wordless = .ok r ∧
      r.url.path = "/v1/models/tuned/%C3%A4%205%:generateContent".toList ∧
      (ofSettings nearby "gemini/tuned/ä 5%").Asks r "tuned/ä 5%" := by
  obtain ⟨r, hprepare, hpath⟩ : ∃ r, (ofSettings nearby "gemini/tuned/ä 5%").prepare wordless =
      .ok r ∧ r.url.path = "/v1/models/tuned/%C3%A4%205%:generateContent".toList :=
    exists_prepare (by decide +kernel)
  have hname : Vendor.wireModel "gemini/tuned/ä 5%" = "tuned/ä 5%" := by decide
  have hbase : IsBase (ofSettings nearby "gemini/tuned/ä 5%").address
      ⟨"http".toList, some "127.0.0.1".toList, some 9, "/v1/".toList, none, none⟩ :=
    ⟨by decide +kernel, by decide, rfl, rfl⟩
  have hkept : KeptInPath (Vendor.wireModel "gemini/tuned/ä 5%").toList := by
    rw [hname]
    exact ⟨List.all_eq_true.1 (by decide), by decide, by decide, by decide⟩
  have hasked := (named_model_is_asked_iff (isFor_wordless _) proper_wordless ⟨_, hbase⟩
    hprepare).1.2 fun _ => hkept
  rw [hname] at hasked
  exact ⟨r, hprepare, hpath, hasked⟩

/-- A question mark cuts the name off, and a segment of a dot is left out, so that two models are
asked for alike. -/
theorem a_question_mark_cuts_the_name :
    (∃ r, (ofSettings nearby "gemini/a?b").prepare wordless = .ok r ∧
      r.url.path = "/v1/models/a".toList ∧
      ¬ (ofSettings nearby "gemini/a?b").Asks r (Vendor.wireModel "gemini/a?b")) ∧
      (ofSettings nearby "gemini/./a").prepare wordless =
        (ofSettings nearby "gemini/a").prepare wordless ∧
      Vendor.wireModel "gemini/./a" ≠ Vendor.wireModel "gemini/a" := by
  refine ⟨?_, by decide +kernel, by decide +kernel⟩
  obtain ⟨r, hprepare, hpath⟩ : ∃ r, (ofSettings nearby "gemini/a?b").prepare wordless = .ok r ∧
      r.url.path = "/v1/models/a".toList :=
    exists_prepare (by decide +kernel)
  refine ⟨r, hprepare, hpath, fun hasks => ?_⟩
  have hvendor : (ofSettings nearby "gemini/a?b").vendor = .gemini := by decide +kernel
  unfold Asks at hasks
  rw [hvendor] at hasks
  obtain ⟨base, -, written, hwritten, -⟩ := hasks
  -- what stands behind the name is longer than the path
  have hlength : pathBack.length ≤ r.url.path.length := by
    rw [hwritten, List.length_append]
    exact Nat.le_add_left _ _
  rw [hpath] at hlength
  exact absurd hlength (by decide)

end Provider

end PromptRunner
