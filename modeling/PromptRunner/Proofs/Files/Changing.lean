import PromptRunner.Files.Operations
import PromptRunner.Proofs.Files.Following

/-!
# What an operation does to a tree

Each operation is told by what lies where before and after it. Making directories only fills free
places, so that ways that were there stay as they were, also when it stops half-way. A new file
takes a free place, which changes no way at all. And moving a file puts it where the other path
leads and frees its own place.
-/

namespace PromptRunner.Files

open PromptRunner.Text

variable {t t' : Tree} {cwd loc l : Location} {path : String} {now : Int} {content : Bytes}

/-! ## Directories -/

/-- A tree with more directories, in places that were free. -/
def Grows (t t' : Tree) : Prop :=
  ∀ loc, t'.node? loc = t.node? loc ∨ t.node? loc = none ∧ t'.node? loc = some .directory

theorem Grows.refl (t : Tree) : Grows t t := fun _ => .inl rfl

theorem Grows.trans {t'' : Tree} (h : Grows t t') (h' : Grows t' t'') : Grows t t'' := by
  intro loc
  rcases h' loc with hsame | ⟨hfree, hnew⟩
  · rw [hsame]
    exact h loc
  · rcases h loc with hsame' | ⟨hfree', hnew'⟩
    · exact .inr ⟨hsame'.symm.trans hfree, hnew⟩
    · exact .inr ⟨hfree', hnew⟩

theorem Grows.node {node : Node} (h : Grows t t') (hnode : t.node? loc = some node) :
    t'.node? loc = some node := by
  rcases h loc with hsame | ⟨hfree, -⟩
  · rw [hsame, hnode]
  · rw [hnode] at hfree
    cases hfree

theorem Grows.keeps (h : Grows t t') : Keeps t t' := ⟨h.node, h.node⟩

theorem ne_root (h : t.node? loc ≠ some .directory) : loc ≠ [] := by
  rintro rfl
  exact h t.node?_root

theorem ne_root_of_free (h : t.node? loc = none) : loc ≠ [] := by
  rintro rfl
  cases h

theorem grows_put (h : t.node? loc = none) : Grows t (t.put loc .directory) := by
  intro other
  by_cases hother : other = loc
  · subst hother
    exact .inr ⟨h, t.node?_put_self .directory (ne_root_of_free h)⟩
  · exact .inl (t.node?_put_ne .directory hother)

theorem grows_of_createDirectory (h : createDirectory t cwd path = .ok t') : Grows t t' := by
  unfold createDirectory at h
  split at h
  · cases h
  · split at h
    · next hfree =>
      cases h
      exact grows_put hfree
    · cases h

/-- The tree that making directories leaves, whether they all were made or not. -/
def madeSoFar : Except (IoError × Tree) Tree → Tree
  | .ok t => t
  | .error (_, t) => t

theorem eq_ok_madeSoFar {outcome : Except (IoError × Tree) Tree} (h : outcome.isOk = true) :
    outcome = .ok (madeSoFar outcome) := by
  cases outcome with
  | error e => cases h
  | ok made => rfl

theorem grows_of_createMissing {above : Tree → Except (IoError × Tree) Tree}
    (habove : ∀ t, Grows t (madeSoFar (above t))) :
    Grows t (madeSoFar (createMissing above t cwd path)) := by
  unfold createMissing
  split
  · next hmade => exact grows_of_createDirectory hmade
  · split
    · have hgrows := habove t
      split
      · next e hstopped =>
        rw [hstopped] at hgrows
        exact hgrows
      · next t1 hmade =>
        rw [hmade] at hgrows
        split
        · next hlast => exact hgrows.trans (grows_of_createDirectory hlast)
        · split <;> exact hgrows
    · split <;> exact Grows.refl t

theorem grows_of_createUpwards (parts : Nat) :
    Grows t (madeSoFar (createUpwards parts t cwd path)) := by
  induction parts generalizing t path with
  | zero => exact Grows.refl t
  | succ parts ih =>
    rw [createUpwards]
    split
    · exact Grows.refl t
    · split
      · exact Grows.refl t
      · exact grows_of_createMissing fun _ => ih

/-- Making directories only fills free places, also when it stops half-way. -/
theorem grows_of_createDirectories : Grows t (madeSoFar (createDirectories t cwd path)) :=
  grows_of_createUpwards _

/-! ## Files -/

theorem ne_root_of_file {f : RegularFile} (h : t.node? loc = some (.file f)) : loc ≠ [] := by
  rintro rfl
  cases h

/-- A file that is removed closes no way. -/
theorem keeps_of_erase_file {f : RegularFile} (h : t.node? loc = some (.file f)) :
    Keeps t (t.erase loc) := .of_file loc (fun _ hne => t.node?_erase_ne hne) h

/-- What comes in place of what was removed closes no way that is left. -/
theorem erase_keeps (hroot : loc ≠ [])
    (h : ∀ other, other ≠ loc → t'.node? other = t.node? other) : Keeps (t.erase loc) t' := by
  refine .of_free loc (fun other hother => ?_) (t.node?_erase_self hroot)
  rw [h other hother, t.node?_erase_ne hother]

theorem createFile_spec (h : createFile t cwd now path content = .ok t') :
    ∃ loc, resolve t cwd false path = .ok loc ∧ t.node? loc = none ∧
      t' = t.put loc (.file ⟨content, now, false⟩) := by
  unfold createFile at h
  split at h
  · cases h
  · next loc hloc =>
    split at h
    · next hfree =>
      cases h
      exact ⟨loc, hloc, hfree, rfl⟩
    · cases h

theorem exists_join_ending (base : String) (name : TemporaryName) (middle : String) :
    ∃ front, Path.join base (name.start ++ middle ++ name.finish) = front ++ name.finish := by
  unfold Path.join
  split
  · exact ⟨_, rfl⟩
  · split
    · exact ⟨_, rfl⟩
    · exact ⟨base ++ (name.start ++ middle), by simp only [String.append_assoc]⟩
    · exact ⟨base ++ "/" ++ (name.start ++ middle), by simp only [String.append_assoc]⟩

/-- The path of a temporary file ends in its name's end. -/
theorem createFresh_spec {base temporary : String} {name : TemporaryName} {middles : List String}
    (h : createFresh t cwd now base name middles = .ok (temporary, t')) :
    (∃ front, temporary = front ++ name.finish) ∧
      ∃ loc, resolve t cwd false temporary = .ok loc ∧ t.node? loc = none ∧
        t' = t.put loc (.file ⟨[], now, false⟩) := by
  induction middles with
  | nil => cases h
  | cons middle others ih =>
    simp only [createFresh] at h
    split at h
    · next hmade =>
      cases h
      exact ⟨exists_join_ending base name middle, createFile_spec hmade⟩
    · split at h
      · exact ih h
      · cases h

theorem removeFile_of_file {f : RegularFile} (h : resolve t cwd false path = .ok loc)
    (hfile : t.node? loc = some (.file f)) : removeFile t cwd path = .ok (t.erase loc) := by
  simp only [removeFile, h, hfile]

/-- A path that does not end in a slash can mean a file. -/
theorem no_slash_after {c : Char} (h : path.toList.getLast? = some c) (hc : c ≠ '/') :
    Path.withoutSlashes path = path ∧ Path.endsInSlash path = false := by
  obtain ⟨front, hfront⟩ := List.getLast?_eq_some_iff.1 h
  have hreverse : path.toList.reverse = c :: front.reverse := by rw [hfront, List.reverse_concat]
  constructor
  · rw [Path.withoutSlashes, hreverse, List.dropWhile_cons_of_neg (by simpa using hc)]
    simp only
    rw [← hreverse, List.reverse_reverse, String.ofList_toList]
  · simp [Path.endsInSlash, h, hc]

theorem writeFile_of_file {f : RegularFile} (now : Int) (content : Bytes)
    (hpath : Path.withoutSlashes path = path)
    (hslash : Path.endsInSlash path = false) (h : resolve t cwd false path = .ok loc)
    (hfile : t.node? loc = some (.file f)) :
    writeFile t cwd now path content =
      .ok (t.put loc (.file { f with content := content, modified := now })) := by
  have hlink : ∀ target, t.node? loc ≠ some (.link target) := by
    intro target hlink
    rw [hfile] at hlink
    cases hlink
  simp only [writeFile, hpath, resolve_true hlink h, hslash, hfile, Bool.false_eq_true, if_false]

/-- A file is moved where the other path leads, unless that is a directory. -/
theorem rename_spec {source target : String} {f : RegularFile}
    (hsource : resolve t cwd false source = .ok loc) (hfile : t.node? loc = some (.file f))
    (h : rename t cwd source target = .ok t') :
    ∃ new, resolve t cwd false target = .ok new ∧ t.node? new ≠ some .directory ∧
      t' = (t.erase loc).put new (.file f) := by
  simp only [rename, hsource] at h
  split at h
  · cases h
  · next new hnew =>
    rw [hfile] at h
    refine ⟨new, hnew, ?_⟩
    match hnode : t.node? new with
    | some .directory =>
      rw [hnode] at h
      cases h
    | some (.file g) =>
      rw [hnode] at h
      cases h
      exact ⟨nofun, rfl⟩
    | some (.link target) =>
      rw [hnode] at h
      cases h
      exact ⟨nofun, rfl⟩
    | none =>
      rw [hnode] at h
      cases h
      exact ⟨nofun, rfl⟩

theorem rename_of_file {source target : String} {f : RegularFile} {new : Location}
    (hsource : resolve t cwd false source = .ok loc) (hfile : t.node? loc = some (.file f))
    (htarget : resolve t cwd false target = .ok new) (hnew : t.node? new ≠ some .directory) :
    rename t cwd source target = .ok ((t.erase loc).put new (.file f)) := by
  simp only [rename, hsource, htarget, hfile]

end PromptRunner.Files
