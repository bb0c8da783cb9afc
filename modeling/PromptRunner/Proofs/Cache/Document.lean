import PromptRunner.Cache.Store
import PromptRunner.Proofs.Json.Compact
import PromptRunner.Proofs.Json.Continuation

/-!
# The document of an entry

An entry that is written is read again with the same model, prompt and content, whatever characters
these hold; its moment may come back a place off. Reading ends with the closing bracket, so that
what is behind it stays behind.

With what is known of more text behind a record, it follows what a file with something else in it
is: a document that was cut short is none, wherever the cut fell, and a document that was written
over a longer one is none unless only blanks are left over.
-/

namespace PromptRunner.Json

/-! ## Members over several lines -/

theorem skipSpace_newLine (level : Nat) (r : List Char) :
    skipSpace (newLine level ++ r) = skipSpace r :=
  skipSpace_blanks (.newLine level) r

theorem readText_stringText (wanted : String) (depth : Nat) (s : String) (r : List Char) :
    readText wanted depth (' ' :: (stringText s ++ r)) = .ok (s, r) := by
  rw [stringText_append, readText, skipSpace_of_space rfl, skipSpace_of_not_space rfl]
  simp only [if_true, readString_escaped]
  show Except.ok (String.ofList s.toList, r) = _
  rw [String.ofList_toList]

theorem nextMember_newLine (first : Bool) (level : Nat) (name : String) (r : List Char) :
    nextMember first ((if first then [] else [',']) ++ newLine level ++ stringText name ++ r) =
      .ok (some name, r) := by
  have hquote : skipSpace (stringText name ++ r) = stringText name ++ r :=
    skipSpace_of_not_space rfl _
  cases first with
  | true =>
    have hskip : skipSpace (newLine level ++ (stringText name ++ r)) =
        '"' :: (escaped name.toList ++ ['"'] ++ r) :=
      (skipSpace_newLine _ _).trans hquote
    rw [if_pos rfl, List.nil_append, List.append_assoc, nextMember, hskip]
    exact readKey_stringText name r
  | false =>
    have hskip : skipSpace (newLine level ++ (stringText name ++ r)) = stringText name ++ r :=
      (skipSpace_newLine _ _).trans hquote
    rw [if_neg Bool.false_ne_true, List.append_assoc, List.append_assoc, nextMember,
      List.singleton_append, skipSpace_of_not_space rfl]
    simp only [hskip]
    exact readKey_stringText name r

variable {fields : List (RecordField σ)} {depth fuel level : Nat} {seen : List String} {v : σ}

/-- A member of a wanted field sets the field. -/
theorem readNamed_prettyMembers {first : Bool} {name : String} {value : Value}
    {ms : List (String × Value)} {field : RecordField σ} {set : σ → σ} {rest : List Char}
    (hfind : fields.find? (·.name = name) = some field) (hseen : seen.contains name = false)
    (hread : field.read depth
        (' ' :: (value.prettyAt level ++ (prettyMembers level false ms ++ rest))) =
      .ok (set, prettyMembers level false ms ++ rest)) :
    readNamed fields depth (fuel + 1) first seen v
        (prettyMembers level first ((name, value) :: ms) ++ rest) =
      readNamed fields depth fuel false (name :: seen) (set v)
        (prettyMembers level false ms ++ rest) := by
  have htext : prettyMembers level first ((name, value) :: ms) ++ rest =
      (if first then [] else [',']) ++ newLine level ++ stringText name ++
        (':' :: ' ' :: (value.prettyAt level ++ (prettyMembers level false ms ++ rest))) := by
    simp [prettyMembers]
  have hcolon : ∀ r, readColon (':' :: r) = .ok r := fun _ => rfl
  rw [htext]
  simp only [readNamed, nextMember_newLine, hfind, hseen, Bool.false_eq_true, if_false, hcolon,
    hread]

theorem readNamed_end (first : Bool) (hmissing : missing? fields seen = none) (u : List Char) :
    readNamed fields depth (fuel + 1) first seen v (newLine level ++ ['\x7d'] ++ u) =
      .ok (v, '\x7d' :: u) := by
  have hmember : nextMember first (newLine level ++ ['\x7d'] ++ u) = .ok (none, '\x7d' :: u) := by
    rw [List.append_assoc, nextMember, skipSpace_newLine, List.singleton_append,
      skipSpace_of_not_space rfl]
    rfl
  simp only [readNamed, hmember, hmissing]

/-- A record that was read between its brackets. -/
theorem readNamed_of_readRecord {title : String} {start w : σ} {body r : List Char}
    (h : readRecord title fields start (depth + 1) ('\x7b' :: body) = .ok (w, r)) :
    ∃ r, readNamed fields depth (body.length + 1) true [] start body = .ok (w, r) := by
  have hne : '\x7b' ≠ '[' := by decide
  rw [readRecord, skipSpace_of_not_space rfl] at h
  simp only [if_neg hne, if_true] at h
  cases hbody : readNamed fields depth (body.length + 1) true [] start body with
  | error trouble =>
    rw [hbody] at h
    cases trouble <;> cases h
  | ok read =>
    obtain ⟨v, r'⟩ := read
    rw [hbody] at h
    simp only [closing] at h
    cases hclose : closeObject r' with
    | error fault =>
      rw [hclose] at h
      cases h
    | ok r'' =>
      rw [hclose] at h
      cases h
      exact ⟨r', rfl⟩

end PromptRunner.Json

namespace PromptRunner.Cache

open PromptRunner.Json PromptRunner.Number

/-- The moment of an entry is a number that can be written. -/
theorem finite_timestamp (now : Int) : Finite64 (timestamp now) := by
  unfold timestamp
  dsimp only
  split
  · next z hz =>
    -- the sum is rounded last
    obtain ⟨x, -, hz⟩ := Option.bind_eq_some_iff.1 hz
    obtain ⟨y, -, hz⟩ := Option.bind_eq_some_iff.1 hz
    exact Format.fits_of_round (by decide) (by decide)
      (Nat.mul_ne_zero x.ratio_value.1.ne' y.ratio_value.1.ne') hz
  · exact ⟨by decide, by decide, by decide⟩

namespace Entry

/-- The members of an entry's document. -/
def members (e : Entry) : List (String × Value) :=
  [ ("model", .string e.model), ("prompt", .string e.prompt), ("content", .string e.content),
    ("timestamp", .number (.real e.timestamp)) ]

theorem text_toList (e : Entry) :
    e.text.toList = '\x7b' :: (prettyMembers 1 true e.members ++ (newLine 0 ++ ['\x7d'])) := by
  rw [text, String.toList_ofList]
  show '\x7b' :: prettyMembers 1 true e.members ++ newLine 0 ++ ['\x7d'] = _
  simp

/-- The members of an entry are read one after the other, and the bracket ends them. -/
theorem readNamed_members {e : Entry} (h : Finite64 e.timestamp) (depth fuel : Nat)
    (u : List Char) :
    ∃ x, readNamed fields depth (fuel + 5) true [] blank
        (prettyMembers 1 true e.members ++ (newLine 0 ++ ['\x7d'] ++ u)) =
      .ok ({ e with timestamp := x }, '\x7d' :: u) := by
  have hleaves : Leaves (newLine 0 ++ ['\x7d'] ++ u) := by
    intro c hc
    cases hc
    decide
  obtain ⟨x, hx⟩ := readReal_text h hleaves "f64" depth
  refine ⟨x, ?_⟩
  rw [members,
    readNamed_prettyMembers rfl rfl (RecordField.of_read (readText_stringText _ depth e.model _)),
    readNamed_prettyMembers rfl rfl (RecordField.of_read (readText_stringText _ depth e.prompt _)),
    readNamed_prettyMembers rfl rfl (RecordField.of_read (readText_stringText _ depth e.content _)),
    readNamed_prettyMembers rfl rfl (RecordField.of_read hx)]
  exact readNamed_end false rfl u

theorem read_text {e : Entry} (h : Finite64 e.timestamp) (u : List Char) :
    ∃ x, read depthLimit (e.text.toList ++ u) = .ok ({ e with timestamp := x }, u) := by
  obtain ⟨k, hk⟩ : ∃ k,
      (prettyMembers 1 true e.members ++ (newLine 0 ++ ['\x7d'] ++ u)).length + 1 = k + 5 := by
    refine ⟨(prettyMembers 1 true e.members ++ (newLine 0 ++ ['\x7d'] ++ u)).length - 4, ?_⟩
    have hnewLine : (newLine 1).length = 3 := rfl
    simp only [members, prettyMembers, List.length_append, hnewLine]
    omega
  obtain ⟨x, hx⟩ := readNamed_members h 126 k u
  rw [← hk] at hx
  refine ⟨x, ?_⟩
  have htext : e.text.toList ++ u =
      '\x7b' :: (prettyMembers 1 true e.members ++ (newLine 0 ++ ['\x7d'] ++ u)) := by
    rw [text_toList]
    simp
  rw [htext]
  exact readRecord_object hx

theorem fields_settle (depth : Nat) : ∀ f ∈ fields, SettlesInside (f.read depth) := by
  have htext := (readText_settles "a string" depth).inside
  have hreal := readReal_settles "f64" depth
  simp only [fields, List.forall_mem_cons]
  exact ⟨RecordField.of_settles htext, RecordField.of_settles htext, RecordField.of_settles htext,
    RecordField.of_settles hreal, nofun⟩

theorem read_settles : Settles (read depthLimit) := readRecord_settles fields_settle depthLimit

/-! ## Documents in files -/

/-- What is written of an entry is the document of that entry, but for its moment. -/
theorem parse_text {e : Entry} (h : Finite64 e.timestamp) :
    ∃ x, parse e.text = .ok { e with timestamp := x } := by
  obtain ⟨x, hx⟩ := read_text h []
  rw [List.append_nil] at hx
  refine ⟨x, ?_⟩
  simp only [parse, readWhole, hx, skipSpace_nil]

/-- A document that was cut short is no entry. -/
theorem parse_beginning {e : Entry} (h : Finite64 e.timestamp) {text : String} {u : List Char}
    (htext : text.toList ++ u = e.text.toList) (hu : u ≠ []) (w : Entry) :
    parse text ≠ .ok w := by
  obtain ⟨x, hx⟩ := read_text h []
  rw [List.append_nil, ← htext] at hx
  exact readWhole_beginning read_settles hx hu

/-- A document with anything but blanks behind it is no entry. -/
theorem parse_overlong {e : Entry} (h : Finite64 e.timestamp) {text : String} {u : List Char}
    (htext : text.toList = e.text.toList ++ u) {c : Char} (hc : c ∈ u)
    (hspace : isSpace c = false) (w : Entry) : parse text ≠ .ok w := by
  obtain ⟨x, hx⟩ := read_text h u
  rw [← htext] at hx
  exact readWhole_overlong hx hc hspace

/-! ## Documents of any moment -/

/-- Two entries that answer the same prompt of the same model with the same content. -/
structure SameAnswer (a b : Entry) : Prop where
  model : a.model = b.model
  prompt : a.prompt = b.prompt
  content : a.content = b.content

/-- A field that was not seen before says nothing of the answer, once the others were seen. -/
theorem sameAnswer_of_field {seen : List String} {key : String} {field : RecordField Entry}
    {set : Entry → Entry} {depth : Nat} {s r : List Char} (v : Entry)
    (hseen : ∀ name ∈ ["model", "prompt", "content"], name ∈ seen)
    (hfind : fields.find? (·.name = key) = some field) (hnew : seen.contains key = false)
    (hread : field.read depth s = .ok (set, r)) : SameAnswer (set v) v := by
  have hname : field.name = key := by simpa using List.find?_some hfind
  have hkey : key ∉ seen := by simpa using hnew
  simp only [List.forall_mem_cons] at hseen
  obtain ⟨hmodel, hprompt, hcontent, -⟩ := hseen
  have hfield := List.mem_of_find?_eq_some hfind
  simp only [fields, List.mem_cons, List.not_mem_nil, or_false] at hfield
  rcases hfield with rfl | rfl | rfl | rfl
  · exact absurd (hname ▸ hmodel) hkey
  · exact absurd (hname ▸ hprompt) hkey
  · exact absurd (hname ▸ hcontent) hkey
  · simp only [RecordField.of] at hread
    cases hvalue : readReal "f64" depth s with
    | error e =>
      rw [hvalue] at hread
      cases hread
    | ok read =>
      rw [hvalue] at hread
      cases hread
      exact ⟨rfl, rfl, rfl⟩

/-- The members behind an answer leave it as it is. -/
theorem readNamed_rest {fuel depth : Nat} {first : Bool} {seen : List String} {v w : Entry}
    {s r : List Char} (hseen : ∀ name ∈ ["model", "prompt", "content"], name ∈ seen)
    (h : readNamed fields depth fuel first seen v s = .ok (w, r)) : SameAnswer w v := by
  induction fuel generalizing first seen v s with
  | zero => cases h
  | succ fuel ih =>
    rw [readNamed] at h
    split at h
    · cases h
    · split at h
      · cases h
      · cases h
        exact ⟨rfl, rfl, rfl⟩
    · split at h
      · split at h
        · cases h
        · split at h
          · cases h
          · exact ih hseen h
      · next key _ _ field hfind =>
        split at h
        · cases h
        · next hnew =>
          split at h
          · cases h
          · split at h
            · cases h
            · next set _ hread =>
              have hlater := ih (fun name hname => List.mem_cons_of_mem _ (hseen name hname)) h
              have hnow :=
                sameAnswer_of_field v hseen hfind (eq_false_of_ne_true hnew) hread
              exact ⟨hlater.model.trans hnow.model, hlater.prompt.trans hnow.prompt,
                hlater.content.trans hnow.content⟩

/-- What is read of the document of an entry is the answer of that entry, whatever its moment. -/
theorem sameAnswer_of_parse_text {e w : Entry} (h : parse e.text = .ok w) : SameAnswer w e := by
  simp only [parse, readWhole] at h
  split at h
  · cases h
  · next v rest hread =>
    have hw : v = w := by
      split at h
      · exact Except.ok.inj h
      · cases h
    subst hw
    rw [text_toList] at hread
    obtain ⟨r, hbody⟩ := readNamed_of_readRecord hread
    obtain ⟨k, hk⟩ : ∃ k,
        (prettyMembers 1 true e.members ++ (newLine 0 ++ ['\x7d'])).length + 1 = k + 4 := by
      refine ⟨(prettyMembers 1 true e.members ++ (newLine 0 ++ ['\x7d'])).length - 3, ?_⟩
      have hnewLine : (newLine 1).length = 3 := rfl
      simp only [members, prettyMembers, List.length_append, hnewLine]
      omega
    rw [hk, members,
      readNamed_prettyMembers rfl rfl (RecordField.of_read (readText_stringText _ 126 e.model _)),
      readNamed_prettyMembers rfl rfl (RecordField.of_read (readText_stringText _ 126 e.prompt _)),
      readNamed_prettyMembers rfl rfl (RecordField.of_read (readText_stringText _ 126 e.content _))]
      at hbody
    have hsame := readNamed_rest (by simp) hbody
    exact ⟨hsame.model, hsame.prompt, hsame.content⟩

end Entry

end PromptRunner.Cache
