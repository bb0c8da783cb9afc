import PromptRunner.Cache.Store
import PromptRunner.Proofs.Files.Changing

/-!
# Storing an answer

Storing makes the directory, makes and fills a temporary file, and moves it. The temporary file
stands in a free place and is no directory, so that no way changes while it is there; and it is
gone afterwards, whether it could be moved or not. What remains is a file where the path leads, or
nothing but new directories.
-/

namespace PromptRunner.Cache

open PromptRunner.Files PromptRunner.Text

variable {t t' : Tree} {cwd loc l : Location} {path : String} {now : Int} {names : List String}
  {entry : Entry} {content : Bytes}

/-- The tree in which an answer is stored: that with the directory of its path, as far as it could
be made. -/
def prepared (t : Tree) (cwd : Location) (path : String) : Tree :=
  madeSoFar (createDirectories t cwd ((Path.parent? path).getD ""))

theorem grows_prepared (t : Tree) (cwd : Location) (path : String) :
    Grows t (prepared t cwd path) := grows_of_createDirectories

/-- The tree with a temporary file that was made in a place and then filled. -/
def filled (t : Tree) (loc : Location) (now : Int) (content : Bytes) : Tree :=
  (t.put loc (.file ⟨[], now, false⟩)).put loc (.file ⟨content, now, false⟩)

theorem node?_filled_self (now : Int) (content : Bytes) (h : t.node? loc = none) :
    (filled t loc now content).node? loc = some (.file ⟨content, now, false⟩) :=
  Tree.node?_put_self _ _ (ne_root_of_free h)

theorem node?_filled_ne {other : Location} (h : other ≠ loc) :
    (filled t loc now content).node? other = t.node? other := by
  rw [filled, Tree.node?_put_ne _ _ h, Tree.node?_put_ne _ _ h]

theorem keeps_filled (h : t.node? loc = none) : Keeps t (filled t loc now content) :=
  .of_free loc (fun _ => node?_filled_ne) h

theorem filled_keeps (h : t.node? loc = none) : Keeps (filled t loc now content) t :=
  .of_file loc (fun _ hne => (node?_filled_ne hne).symm) (node?_filled_self _ _ h)

/-- The path of a temporary file can mean a file. -/
theorem no_slash_behind {temporary : String} (h : ∃ front, temporary = front ++ ".tmp") :
    Path.withoutSlashes temporary = temporary ∧ Path.endsInSlash temporary = false := by
  obtain ⟨front, rfl⟩ := h
  have hlast : (front ++ ".tmp").toList.getLast? = some 'p' := by simp
  exact no_slash_after hlast (by decide)

/-- A temporary file is filled, and then moved or removed. -/
theorem publish_eq {temporary : String} (hend : ∃ front, temporary = front ++ ".tmp")
    (hfree : t.node? loc = none) (hloc : resolve t cwd false temporary = .ok loc) :
    publish (t.put loc (.file ⟨[], now, false⟩)) cwd now temporary path content =
      match rename (filled t loc now content) cwd temporary path with
      | .error e => (.error e, (filled t loc now content).erase loc)
      | .ok t => (.ok (), t) := by
  obtain ⟨hpath, hslash⟩ := no_slash_behind hend
  have hnew := t.node?_put_self (.file ⟨[], now, false⟩) (ne_root_of_free hfree)
  have hkeeps : Keeps t (t.put loc (.file ⟨[], now, false⟩)) :=
    .of_free loc (fun _ hne => t.node?_put_ne _ hne) hfree
  have hwrite := writeFile_of_file now content hpath hslash (resolve_keeps hkeeps hloc) hnew
  have hremove := removeFile_of_file (resolve_keeps (keeps_filled hfree) hloc)
    (node?_filled_self now content hfree)
  have hdiscard : discard (filled t loc now content) cwd temporary =
      (filled t loc now content).erase loc := by rw [discard, hremove]
  rw [publish, hwrite, ← hdiscard]
  rfl

/-- An answer that is stored lies where its path leads, and nothing else has changed since the
directory was made. -/
theorem store_ok (h : store t cwd now names path entry = (.ok (), t')) :
    ∃ loc, resolve (prepared t cwd path) cwd false path = .ok loc ∧
      (prepared t cwd path).node? loc ≠ some .directory ∧
      t'.node? loc = some (.file ⟨bytesOf entry.text, now, false⟩) ∧
      ∀ other, other ≠ loc → t'.node? other = (prepared t cwd path).node? other := by
  simp only [store] at h
  split at h
  · cases h
  · next t1 hmade =>
    have hprepared : prepared t cwd path = t1 := by rw [prepared, hmade, madeSoFar]
    rw [hprepared]
    split at h
    · cases h
    · next temporary t2 hfresh =>
      obtain ⟨hend, loc, hloc, hfree, rfl⟩ := createFresh_spec hfresh
      rw [publish_eq hend hfree hloc] at h
      split at h
      · cases h
      · next t3 hrename =>
        cases h
        obtain ⟨new, hnew, hdirectory, rfl⟩ := rename_spec
          (resolve_keeps (keeps_filled hfree) hloc) (node?_filled_self _ _ hfree) hrename
        have hnew := resolve_keeps (filled_keeps hfree) hnew
        refine ⟨new, hnew, ?_, Tree.node?_put_self _ _ (ne_root hdirectory), ?_⟩
        · by_cases hsame : new = loc
          · rw [hsame, hfree]
            nofun
          · rwa [node?_filled_ne hsame] at hdirectory
        · intro other hother
          rw [Tree.node?_put_ne _ _ hother]
          by_cases hsame : other = loc
          · rw [hsame, Tree.node?_erase_self _ (ne_root_of_free hfree), hfree]
          · rw [Tree.node?_erase_ne _ hsame, node?_filled_ne hsame]

/-- An answer that could not be stored leaves nothing but the directory that it was to lie in. -/
theorem store_error_same {e : IoError} (h : store t cwd now names path entry = (.error e, t'))
    (l : Location) : t'.node? l = (prepared t cwd path).node? l := by
  simp only [store] at h
  split at h
  · next e1 t1 hmade =>
    cases h
    rw [prepared, hmade, madeSoFar]
  · next t1 hmade =>
    rw [prepared, hmade, madeSoFar]
    split at h
    · cases h
      rfl
    · next temporary t2 hfresh =>
      obtain ⟨hend, loc, hloc, hfree, rfl⟩ := createFresh_spec hfresh
      rw [publish_eq hend hfree hloc] at h
      split at h
      · cases h
        by_cases hsame : l = loc
        · rw [hsame, Tree.node?_erase_self _ (ne_root_of_free hfree)]
          exact hfree.symm
        · rw [Tree.node?_erase_ne _ hsame, node?_filled_ne hsame]
      · cases h

/-- An answer that could not be stored leaves directories at most. -/
theorem store_error {e : IoError} (h : store t cwd now names path entry = (.error e, t')) :
    Grows t t' := by
  intro l
  rw [store_error_same h l]
  exact grows_prepared t cwd path l

end PromptRunner.Cache
