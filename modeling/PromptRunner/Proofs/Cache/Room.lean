import PromptRunner.Proofs.Cache.Held
import PromptRunner.Proofs.Cache.Temporary
import PromptRunner.Proofs.Files.Furnishing
import PromptRunner.Proofs.Files.Visiting

/-!
# Room for an answer

What it takes to store an answer can be told without storing it: the directory can be made, a
temporary file can be made in it, and the path leads to a place that is no directory (`Room`). An
answer is stored exactly if there is room for it (`store_iff_room`).

Answers that come and go use no room up. All that they change once the directory is made are the
files of keys (`Refilled`): no way runs through a file, and no temporary file has the name of a key.
-/

namespace PromptRunner.Cache

open PromptRunner.Files PromptRunner.Text

variable {t t' u made : Tree} {cwd loc : Location} {path directory model prompt temporary : String}
  {now : Int} {names : List String} {f : RegularFile}

/-- What it takes to store an answer at a path. -/
structure Room (t : Tree) (cwd : Location) (now : Int) (names : List String) (path : String) :
    Prop where
  directory : (createDirectories t cwd ((Path.parent? path).getD "")).isOk = true
  temporary : ∃ temporary made, createTemporary (prepared t cwd path) cwd now
    ((Path.parent? path).getD "") temporaryName names = .ok (temporary, made)
  place : ∃ loc, resolve (prepared t cwd path) cwd false path = .ok loc ∧
    (prepared t cwd path).node? loc ≠ some .directory

/-- Where there is room for an answer, it is stored, and nowhere else. -/
theorem store_iff_room (entry : Entry) :
    (store t cwd now names path entry).1 = .ok () ↔ Room t cwd now names path := by
  constructor
  · intro h
    have hplace := store_ok (store_eq h)
    simp only [store] at h
    split at h
    · cases h
    · next made hmade =>
      have hprepared : prepared t cwd path = made := by rw [prepared, hmade, madeSoFar]
      split at h
      · cases h
      · next temporary t1 hfresh =>
        obtain ⟨loc, hloc, hdirectory, -⟩ := hplace
        refine ⟨by rw [hmade]; rfl, ⟨temporary, t1, ?_⟩, loc, hloc, hdirectory⟩
        rw [hprepared, hfresh]
  · rintro ⟨hdirectory, ⟨temporary, t1, hfresh⟩, new, hnew, hplace⟩
    have hmade : createDirectories t cwd ((Path.parent? path).getD "") =
        .ok (prepared t cwd path) := eq_ok_madeSoFar hdirectory
    obtain ⟨hend, loc, hloc, hfree, rfl⟩ := createFresh_spec hfresh
    have hkeeps : Keeps (prepared t cwd path)
        (filled (prepared t cwd path) loc now (bytesOf entry.text)) := keeps_filled hfree
    have hplace' : (filled (prepared t cwd path) loc now (bytesOf entry.text)).node? new ≠
        some .directory := by
      by_cases hsame : new = loc
      · rw [hsame, node?_filled_self now _ hfree]
        exact fun hnode => by cases hnode
      · rwa [node?_filled_ne hsame]
    have hrename := rename_of_file (resolve_keeps hkeeps hloc)
      (node?_filled_self now (bytesOf entry.text) hfree) (resolve_keeps hkeeps hnew) hplace'
    simp only [store, hmade, hfresh, publish_eq hend hfree hloc, hrename]

/-! ## Answers come and go -/

/-- A place that has the name of a key. -/
def Keyed (loc : Location) : Prop := ∃ model prompt d, loc = fileName model prompt :: d

/-- A tree that differs in the files of keys only. -/
structure Refilled (t t' : Tree) : Prop where
  bearing : ∀ l, t'.bearing l = t.bearing l
  same : AgreeOff Keyed t t'

theorem keyed_of_resolve (h : resolve t cwd false (filePath directory model prompt) = .ok loc) :
    Keyed loc := by
  obtain ⟨-, -, d, -, rfl⟩ := resolve_filePath.1 h
  exact ⟨model, prompt, d, rfl⟩

namespace Refilled

theorem refl (t : Tree) : Refilled t t := ⟨fun _ => rfl, .refl t⟩

theorem keeps (h : Refilled t t') : Keeps t t' where
  directory hd := by
    rw [← bearing_directory, h.bearing]
    exact bearing_directory.2 hd
  link hl := by
    rw [← bearing_link, h.bearing]
    exact bearing_link.2 hl

/-- A key whose file is removed. -/
theorem erase (h : Refilled t t') (hkey : Keyed loc) (hfile : t'.node? loc = some (.file f)) :
    Refilled t (t'.erase loc) where
  bearing l := by
    rw [← h.bearing]
    by_cases hl : l = loc
    · rw [hl, Tree.bearing, t'.node?_erase_self (ne_root_of_file hfile), Tree.bearing, hfile]
    · exact bearing_congr (t'.node?_erase_ne hl)
  same l hl := by
    have hne : l ≠ loc := fun heq => hl (heq ▸ hkey)
    rw [h.same l hl, t'.node?_erase_ne hne]

/-- A key that gets a file. -/
theorem fill (h : Refilled t t') (hkey : Keyed loc) (hfree : t'.node? loc = none)
    (hfile : u.node? loc = some (.file f)) (hsame : ∀ l, l ≠ loc → u.node? l = t'.node? l) :
    Refilled t u where
  bearing l := by
    rw [← h.bearing]
    by_cases hl : l = loc
    · rw [hl, Tree.bearing, hfile, Tree.bearing, hfree]
    · exact bearing_congr (hsame l hl)
  same l hl := by
    have hne : l ≠ loc := fun heq => hl (heq ▸ hkey)
    rw [h.same l hl, hsame l hne]

/-- A temporary file gets the name that it would have got. -/
theorem createFresh {base : String} (h : Refilled t t')
    (hmade : createFresh t cwd now base temporaryName names = .ok (temporary, made)) :
    ∃ made', Files.createFresh t' cwd now base temporaryName names = .ok (temporary, made') := by
  induction names with
  | nil => cases hmade
  | cons middle others ih =>
    have hend := exists_join_ending base temporaryName middle
    simp only [Files.createFresh] at hmade ⊢
    -- where the name leads, the same lies in both trees
    have hnode : ∀ {loc}, resolve t cwd false
        (Path.join base (temporaryName.start ++ middle ++ temporaryName.finish)) = .ok loc →
          t'.node? loc = t.node? loc := by
      intro loc hloc
      refine (h.same loc ?_).symm
      rintro ⟨model, prompt, d, hkey⟩
      exact ne_key_of_ending hend hloc model prompt d hkey
    cases hloc : resolve t cwd false
        (Path.join base (temporaryName.start ++ middle ++ temporaryName.finish)) with
    | error e =>
      have hne : e ≠ .system .exists_ := fun heq => resolve_ne_exists (heq ▸ hloc)
      simp only [createFile, hloc, if_neg hne] at hmade
      cases hmade
    | ok loc =>
      have hloc' := resolve_keeps h.keeps hloc
      cases hfree : t.node? loc with
      | none =>
        simp only [createFile, hloc, hfree] at hmade
        cases hmade
        have hfree' := hnode hloc
        rw [hfree] at hfree'
        simp only [createFile, hloc', hfree']
        exact ⟨_, rfl⟩
      | some node =>
        simp only [createFile, hloc, hfree, if_true] at hmade
        have htaken := hnode hloc
        rw [hfree] at htaken
        simp only [createFile, hloc', htaken, if_true]
        exact ih hmade

end Refilled

/-- The directory of a key is the same for every key. -/
theorem prepared_filePath (t : Tree) (cwd : Location) (directory : String)
    (model prompt m p : String) : prepared t cwd (filePath directory m p) =
      prepared t cwd (filePath directory model prompt) := by
  obtain ⟨outer, houter⟩ := exists_parent_join directory
  rw [prepared, prepared, filePath, filePath, houter _ (plain_fileName m p),
    houter _ (plain_fileName model prompt)]

/-- Where the path of a key leads, its directory is there. -/
theorem createDirectories_of_key
    (h : resolve t cwd false (filePath directory model prompt) = .ok loc) :
    createDirectories t cwd ((Path.parent? (filePath directory model prompt)).getD "") = .ok t := by
  obtain ⟨outer, houter⟩ := exists_parent_join directory
  have hparent := houter _ (plain_fileName model prompt)
  rw [filePath, hparent]
  exact createDirectories_of_way (plain_fileName model prompt) h hparent

theorem prepared_of_key (h : resolve t cwd false (filePath directory model prompt) = .ok loc) :
    prepared t cwd (filePath directory model prompt) = t := by
  rw [prepared, createDirectories_of_key h, madeSoFar]

/-- Once the directory is made, there is room as long as only the files of keys change. -/
theorem Room.refilled (h : Room t cwd now names (filePath directory model prompt))
    (hrefilled : Refilled (prepared t cwd (filePath directory model prompt)) t') :
    Room t' cwd now names (filePath directory model prompt) := by
  obtain ⟨-, ⟨temporary, made, hfresh⟩, loc, hloc, hplace⟩ := h
  have hloc' := resolve_keeps hrefilled.keeps hloc
  have hmade := createDirectories_of_key hloc'
  have hprepared := prepared_of_key hloc'
  -- from here on the path is any text
  generalize filePath directory model prompt = path at *
  rw [createTemporary] at hfresh
  obtain ⟨made', hfresh'⟩ := hrefilled.createFresh hfresh
  refine ⟨by rw [hmade]; rfl, ⟨temporary, made', ?_⟩, loc, ?_, ?_⟩
  · rw [hprepared, createTemporary, hfresh']
  · rwa [hprepared]
  · rw [hprepared]
    intro hd
    rw [← bearing_directory, hrefilled.bearing] at hd
    exact hplace (bearing_directory.1 hd)

end PromptRunner.Cache
