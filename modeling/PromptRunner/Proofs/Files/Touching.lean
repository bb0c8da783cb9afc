import PromptRunner.Proofs.Files.Changing

/-!
# Where making directories shows

A directory is made with those that it lies in, as the text of its path has them. So what can change
are the places that the path leads to, and the places that its outer paths lead to. Where they lead
may itself change while directories are made and files are removed; but no link is ever added by
this program, so that all ways are ways in a tree that has no link but the old ones.
-/

namespace PromptRunner.Files

open PromptRunner.Text

variable {t t' u : Tree} {cwd loc l : Location} {path : String} {now : Int}

/-- A path itself, or one that it lies in by its text. -/
inductive Outer (path : String) : String → Prop
  | self : Outer path path
  | parent {inner outer : String} : Outer path inner → Path.parent? inner = some outer →
      Outer path outer

theorem Outer.of_parent {outer wider : String} (hparent : Path.parent? path = some outer)
    (h : Outer outer wider) : Outer path wider := by
  induction h with
  | self => exact .parent .self hparent
  | parent _ hnext ih => exact .parent ih hnext

/-- The links of a tree are links of another. -/
def NoNewLinks (t u : Tree) : Prop :=
  ∀ loc target, u.node? loc = some (.link target) → t.node? loc = some (.link target)

theorem NoNewLinks.refl (t : Tree) : NoNewLinks t t := fun _ _ => id

theorem NoNewLinks.trans (h : NoNewLinks t t') (h' : NoNewLinks t' u) : NoNewLinks t u :=
  fun loc target hlink => h loc target (h' loc target hlink)

theorem Grows.noNewLinks (h : Grows t u) : NoNewLinks t u := by
  intro loc target hlink
  rcases h loc with hsame | ⟨-, hnew⟩
  · rwa [hsame] at hlink
  · rw [hnew] at hlink
    cases hlink

theorem noNewLinks_erase (t : Tree) (hroot : loc ≠ []) : NoNewLinks t (t.erase loc) := by
  intro other target hlink
  by_cases hother : other = loc
  · rw [hother, t.node?_erase_self hroot] at hlink
    cases hlink
  · rwa [t.node?_erase_ne hother] at hlink

/-- A place that a path may come to name, with or without slashes behind it, while no link is
added. -/
def MayName (t : Tree) (cwd : Location) (path : String) (l : Location) : Prop :=
  ∃ u, NoNewLinks t u ∧ (resolve u cwd false path = .ok l ∨
    resolve u cwd false (Path.withoutSlashes path) = .ok l)

theorem MayName.of_noNewLinks (h : NoNewLinks t u) (hname : MayName u cwd path l) :
    MayName t cwd path l := by
  obtain ⟨v, hv, hl⟩ := hname
  exact ⟨v, h.trans hv, hl⟩

/-! ## One operation -/

theorem createDirectory_frame (h : createDirectory t cwd path = .ok t') (l : Location) :
    t'.node? l = t.node? l ∨ MayName t cwd path l := by
  unfold createDirectory at h
  split at h
  · cases h
  · next loc hloc =>
    split at h
    · cases h
      by_cases hl : l = loc
      · exact .inr ⟨t, .refl t, .inr (hl ▸ hloc)⟩
      · exact .inl (t.node?_put_ne _ hl)
    · cases h

theorem removeFile_frame (h : removeFile t cwd path = .ok t') :
    NoNewLinks t t' ∧ ∀ l, t'.node? l = t.node? l ∨ MayName t cwd path l := by
  unfold removeFile at h
  split at h
  · cases h
  · next loc hloc =>
    split at h
    · cases h
    · cases h
    · next node hdirectory hnode =>
      cases h
      have hroot : loc ≠ [] :=
        ne_root fun hd => hdirectory (Option.some.inj (hnode.symm.trans hd))
      refine ⟨noNewLinks_erase t hroot, fun l => ?_⟩
      by_cases hl : l = loc
      · exact .inr ⟨t, .refl t, .inl (hl ▸ hloc)⟩
      · exact .inl (t.node?_erase_ne hl)

/-! ## Directories with those that they lie in -/

/-- A place that making a directory may fill. -/
def MayMake (t : Tree) (cwd : Location) (path : String) (l : Location) : Prop :=
  ∃ outer, Outer path outer ∧ MayName t cwd outer l

theorem MayMake.of_noNewLinks (h : NoNewLinks t u) (hmake : MayMake u cwd path l) :
    MayMake t cwd path l := by
  obtain ⟨outer, houter, hname⟩ := hmake
  exact ⟨outer, houter, hname.of_noNewLinks h⟩

theorem createMissing_frame {above : Tree → Except (IoError × Tree) Tree}
    (hgrows : Grows t (madeSoFar (above t)))
    (habove : (madeSoFar (above t)).node? l = t.node? l ∨ MayMake t cwd path l) :
    (madeSoFar (createMissing above t cwd path)).node? l = t.node? l ∨ MayMake t cwd path l := by
  unfold createMissing
  split
  · next hmade =>
    exact (createDirectory_frame hmade l).imp_right fun hname => ⟨path, .self, hname⟩
  · split
    · split
      · next hstopped =>
        rw [hstopped] at habove
        exact habove
      -- the second attempt is made in a tree that has more directories, but no more links
      · next t1 hmade =>
        rw [hmade] at habove hgrows
        split
        · next hlast =>
          rcases createDirectory_frame hlast l with hsame | hname
          · rw [madeSoFar, hsame]
            exact habove
          · exact .inr ⟨path, .self, hname.of_noNewLinks hgrows.noNewLinks⟩
        · split <;> exact habove
    · split <;> exact .inl rfl

/-- Making directories fills places that the path or an outer one may name. -/
theorem createUpwards_frame (parts : Nat) (l : Location) :
    (madeSoFar (createUpwards parts t cwd path)).node? l = t.node? l ∨ MayMake t cwd path l := by
  induction parts generalizing path with
  | zero => exact .inl rfl
  | succ parts ih =>
    rw [createUpwards]
    split
    · exact .inl rfl
    · split
      · exact .inl rfl
      · next parent hparent =>
        refine createMissing_frame (grows_of_createUpwards parts) (ih.imp_right ?_)
        rintro ⟨outer, houter, hname⟩
        exact ⟨outer, houter.of_parent hparent, hname⟩

theorem createDirectories_frame (t : Tree) (cwd : Location) (path : String) (l : Location) :
    (madeSoFar (createDirectories t cwd path)).node? l = t.node? l ∨ MayMake t cwd path l :=
  createUpwards_frame _ l

end PromptRunner.Files
