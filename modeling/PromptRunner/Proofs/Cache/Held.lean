import PromptRunner.Proofs.Cache.Stored

/-!
# What the paths of a directory hold

Of a tree, all that matters to the cache is what the path of each key holds: an answer with the time
it was written, or nothing. A path that holds an answer leads to a file. A path that holds nothing
need not lead anywhere yet, since the directory may be missing; what is said of it is that wherever
it would lead if directories were made, no file lies.

Each change of a tree is told in these terms: making directories changes nothing that is held,
removing a key's file leaves the key with nothing, and storing leaves it with the new answer. Each
time, every other key of the directory holds what it held.
-/

namespace PromptRunner.Cache

open PromptRunner.Files PromptRunner.Json PromptRunner.Text

variable {t t' : Tree} {cwd loc : Location} {path directory : String} {now limit : Int}
  {names : List String} {entry : Entry} {held : Option (String × Int)}

/-- Nothing but a directory lies somewhere, if anything. -/
def NoFile (t : Tree) (loc : Location) : Prop :=
  t.node? loc = none ∨ t.node? loc = some .directory

/-- What a path holds: an answer and the time it was written, or nothing. -/
inductive Holds (t : Tree) (cwd : Location) (path : String) : Option (String × Int) → Prop
  | answer {loc : Location} {f : RegularFile} {content : String} :
      resolve t cwd false path = .ok loc → t.node? loc = some (.file f) →
        answerIn f.content = some content → Holds t cwd path (some (content, f.modified))
  | nothing :
      (∀ made, Grows t made → ∀ loc, resolve made cwd false path = .ok loc → NoFile t loc) →
        Holds t cwd path none

theorem NoFile.grows (h : NoFile t loc) (hgrows : Grows t t') : NoFile t' loc := by
  rcases hgrows loc with hsame | ⟨-, hnew⟩
  · rw [NoFile, hsame]
    exact h
  · exact .inr hnew

theorem NoFile.fileOf (h : NoFile t loc) : fileOf (t.node? loc) = none := by
  rcases h with h | h <;> rw [h] <;> rfl

theorem NoFile.no_link (h : NoFile t loc) (target : String) :
    t.node? loc ≠ some (.link target) := by
  rcases h with h | h <;> rw [h] <;> nofun

/-! ## Looking up -/

theorem Holds.no_file (h : Holds t cwd path none) : fileAt t cwd path = none := by
  match h with
  | .nothing hfree =>
    by_cases hway : ∃ loc, resolve t cwd false path = .ok loc
    · obtain ⟨loc, hloc⟩ := hway
      have hno := hfree t (Grows.refl t) loc hloc
      rw [fileAt_of_resolve hno.no_link hloc, hno.fileOf]
    · exact fileAt_of_no_way fun l hl => hway ⟨l, hl⟩

theorem Holds.lookup_nothing (h : Holds t cwd path none) :
    lookup t cwd now limit path = (none, t) := lookup_of_no_file h.no_file

/-- Whether an answer of some time may still be used. -/
def Young (now limit written : Int) : Prop := limit = 0 ∨ ageOf now written < limit * second

instance (now limit written : Int) : Decidable (Young now limit written) :=
  inferInstanceAs (Decidable (_ ∨ _))

theorem isExpired_iff {written : Int} (hlimit : 0 ≤ limit) :
    isExpired now limit written = true ↔ ¬ Young now limit written := by
  unfold isExpired Young
  simp only [Bool.and_eq_true, decide_eq_true_eq]
  omega

/-- An answer that is young enough is found, and nothing changes. -/
theorem Holds.lookup_young {content : String} {written : Int}
    (h : Holds t cwd path (some (content, written))) (hlimit : 0 ≤ limit)
    (hyoung : Young now limit written) : lookup t cwd now limit path = (some content, t) := by
  match h with
  | @Holds.answer _ _ _ _ f _ hloc hfile hanswer =>
    have hvalid : isExpired now limit f.modified = false :=
      eq_false_of_ne_true fun hexpired => (isExpired_iff hlimit).1 hexpired hyoung
    rw [lookup_of_file (fileAt_of_file hloc hfile), answerOf, hvalid, hanswer]
    simp [Int.not_lt.2 hlimit]

/-- An answer that is too old is not found, and its file is removed. -/
theorem Holds.lookup_old {content : String} {written : Int}
    (h : Holds t cwd path (some (content, written))) (hlimit : 0 ≤ limit)
    (hold : ¬ Young now limit written) :
    ∃ loc f, resolve t cwd false path = .ok loc ∧ t.node? loc = some (.file f) ∧
      lookup t cwd now limit path = (none, t.erase loc) := by
  match h with
  | @Holds.answer _ _ _ loc f _ hloc hfile hanswer =>
    have hexpired : isExpired now limit f.modified = true := (isExpired_iff hlimit).2 hold
    refine ⟨loc, f, hloc, hfile, ?_⟩
    rw [lookup_of_file (fileAt_of_file hloc hfile), answerOf, hexpired, discard,
      removeFile_of_file hloc hfile]
    simp [hlimit]

/-- Looking up changes nothing but the file that is found too old. -/
theorem Holds.lookup_tree (h : Holds t cwd path held) :
    (lookup t cwd now limit path).2 = t ∨
      ∃ loc f, resolve t cwd false path = .ok loc ∧ t.node? loc = some (.file f) ∧
        (lookup t cwd now limit path).2 = t.erase loc := by
  match h with
  | .nothing hfree =>
    rw [(Holds.nothing hfree).lookup_nothing]
    exact .inl rfl
  | @Holds.answer _ _ _ loc f _ hloc hfile hanswer =>
    unfold lookup
    split
    · exact .inl rfl
    · refine .inr ⟨loc, f, hloc, hfile, ?_⟩
      rw [discard, removeFile_of_file hloc hfile]
    · exact .inl rfl

/-! ## Changes -/

/-- Making directories changes nothing that is held. -/
theorem Holds.grows (h : Holds t cwd path held) (hgrows : Grows t t') :
    Holds t' cwd path held := by
  match h with
  | .answer hloc hfile hanswer =>
    exact .answer (resolve_keeps hgrows.keeps hloc) (hgrows.node hfile) hanswer
  | .nothing hfree =>
    refine .nothing fun made hmade loc hloc => ?_
    exact (hfree made (hgrows.trans hmade) loc hloc).grows hgrows

variable {model prompt m p : String}

theorem holds_erased {f : RegularFile} (hloc : resolve t cwd false path = .ok loc)
    (hfile : t.node? loc = some (.file f)) : Holds (t.erase loc) cwd path none := by
  refine .nothing fun made hmade l hl => ?_
  have hsame := resolve_keeps ((keeps_of_erase_file hfile).trans hmade.keeps) hloc
  rw [hl] at hsame
  cases hsame
  exact .inl (t.node?_erase_self (ne_root_of_file hfile))

/-- A file that is removed changes nothing for the other keys of the directory. -/
theorem Holds.of_erase {f : RegularFile} (hname : fileName m p ≠ fileName model prompt)
    (hloc : resolve t cwd false (filePath directory model prompt) = .ok loc)
    (hfile : t.node? loc = some (.file f)) (h : Holds t cwd (filePath directory m p) held) :
    Holds (t.erase loc) cwd (filePath directory m p) held := by
  have hkeeps := keeps_of_erase_file hfile
  cases h with
  | answer hl hfile' hanswer =>
    have hne := (resolve_sibling hname (Keeps.refl t) hloc hl).2
    refine .answer (resolve_keeps hkeeps hl) ?_ hanswer
    rw [t.node?_erase_ne hne, hfile']
  | nothing hfree =>
    refine .nothing fun made hmade l hl => ?_
    obtain ⟨hbefore, hne⟩ := resolve_sibling hname (hkeeps.trans hmade.keeps) hloc hl
    have hno := hfree t (Grows.refl t) l hbefore
    rwa [NoFile, t.node?_erase_ne hne]

theorem free_of_store (h : Holds t cwd path none)
    (hstore : store t cwd now names path entry = (.ok (), t')) :
    ∃ loc, resolve (prepared t cwd path) cwd false path = .ok loc ∧
      (prepared t cwd path).node? loc = none ∧
        t'.node? loc = some (.file ⟨bytesOf entry.text, now, false⟩) ∧
          ∀ other, other ≠ loc → t'.node? other = (prepared t cwd path).node? other := by
  obtain ⟨loc, hloc, hdirectory, hfile, hsame⟩ := store_ok hstore
  refine ⟨loc, hloc, ?_, hfile, hsame⟩
  match h.grows (grows_prepared t cwd path) with
  | .nothing hfree =>
    exact (hfree _ (Grows.refl _) loc hloc).resolve_right hdirectory

theorem holds_stored (h : Holds t cwd path none) (hfinite : Finite64 entry.timestamp)
    (hstore : store t cwd now names path entry = (.ok (), t')) :
    Holds t' cwd path (some (entry.content, now)) := by
  obtain ⟨loc, hloc, hfree, hfile, hsame⟩ := free_of_store h hstore
  have hkeeps : Keeps (prepared t cwd path) t' := .of_free loc hsame hfree
  refine .answer (resolve_keeps hkeeps hloc) hfile ?_
  simp only
  exact answerIn_text hfinite

/-- A new file under one key changes nothing for the other keys of the directory. -/
theorem Holds.of_new_file {f : RegularFile} (hname : fileName m p ≠ fileName model prompt)
    (hloc : resolve t cwd false (filePath directory model prompt) = .ok loc)
    (hfree : t.node? loc = none) (hfile : t'.node? loc = some (.file f))
    (hsame : ∀ other, other ≠ loc → t'.node? other = t.node? other)
    (h : Holds t cwd (filePath directory m p) held) :
    Holds t' cwd (filePath directory m p) held := by
  have hkeeps : Keeps t t' := .of_free loc hsame hfree
  cases h with
  | answer hl hfile' hanswer =>
    refine .answer (resolve_keeps hkeeps hl) ?_ hanswer
    rw [hsame _ (resolve_sibling hname (Keeps.refl t) hloc hl).2, hfile']
  | nothing hfree' =>
    refine .nothing fun made hmade l hl => ?_
    have hl' := (resolve_sibling hname (hkeeps.trans hmade.keeps) hloc hl).2
    have hroot := ne_root_of_free hfree
    -- without the new file, the later tree is one that the earlier could have grown into
    have hgrows : Grows t (made.erase loc) := by
      intro other
      by_cases hother : other = loc
      · subst hother
        exact .inl (by rw [made.node?_erase_self hroot, hfree])
      · rw [made.node?_erase_ne hother, ← hsame other hother]
        exact hmade other
    have hmadeFile := hmade.node hfile
    have hno := hfree' _ hgrows l (resolve_keeps (keeps_of_erase_file hmadeFile) hl)
    rwa [NoFile, hsame l hl']

/-- An answer that is stored changes nothing for the other keys of the directory. -/
theorem Holds.of_store (hname : fileName m p ≠ fileName model prompt)
    (hnothing : Holds t cwd (filePath directory model prompt) none)
    (hstore : store t cwd now names (filePath directory model prompt) entry = (.ok (), t'))
    (h : Holds t cwd (filePath directory m p) held) :
    Holds t' cwd (filePath directory m p) held := by
  obtain ⟨loc, hloc, hfree, hfile, hsame⟩ := free_of_store hnothing hstore
  exact (h.grows (grows_prepared t cwd _)).of_new_file hname hloc hfree hfile hsame

end PromptRunner.Cache
