import PromptRunner.Proofs.Files.Visiting

/-!
# Writing next to a part of a tree

A file that is written by a path that keeps out of a part is written outside of it, and to the same
place in every tree that differs in the part only. So two such trees stay two such trees, the part
is as before in both, and the paths that kept out of it still do, because a file stands in no way.
-/

namespace PromptRunner.Files

open PromptRunner.Text

variable {part : Location → Prop} {t t' u u' v v' : Tree} {cwd place : Location}
  {path base : String} {name : TemporaryName} {middles : List String}

/-- Two trees that came of two others by the same new files, outside of a part. -/
structure Alongside (part : Location → Prop) (t t' u u' : Tree) : Prop where
  agree : AgreeOff part u u'
  left : Spared part t u
  right : Spared part t' u'
  bearing : ∀ l, u.bearing l = t.bearing l

theorem Alongside.refl (h : AgreeOff part t t') : Alongside part t t' t t' :=
  ⟨h, .refl t, .refl t', fun _ => rfl⟩

theorem Alongside.trans (h : Alongside part t t' u u') (h' : Alongside part u u' v v') :
    Alongside part t t' v v' :=
  ⟨h'.agree, h.left.trans h'.left, h.right.trans h'.right,
    fun l => (h'.bearing l).trans (h.bearing l)⟩

/-- Two results that are the same error, or answers that belong together. -/
def Together {ε α : Type} (R : α → α → Prop) (x x' : Except ε α) : Prop :=
  (∃ e, x = .error e ∧ x' = .error e) ∨ ∃ a a', x = .ok a ∧ x' = .ok a' ∧ R a a'

theorem spared_put {node : Node} (h : ¬ part place) : Spared part t (t.put place node) := by
  intro l hl
  exact t.node?_put_ne node fun heq => h (heq ▸ hl)

theorem spared_erase (h : ¬ part place) : Spared part t (t.erase place) := by
  intro l hl
  exact t.node?_erase_ne fun heq => h (heq ▸ hl)

theorem alongside_put (h : AgreeOff part t t') (hplace : ¬ part place)
    (hnode : t.node? place = none ∨ ∃ g, t.node? place = some (.file g)) (f : RegularFile) :
    Alongside part t t' (t.put place (.file f)) (t'.put place (.file f)) := by
  refine ⟨fun l hl => ?_, spared_put hplace, spared_put hplace, bearing_put_file hnode f⟩
  by_cases heq : l = place
  · subst heq
    have hroot : l ≠ [] := by
      rcases hnode with hfree | ⟨g, hfile⟩
      · exact ne_root_of_free hfree
      · exact ne_root_of_file hfile
    rw [t.node?_put_self _ hroot, t'.node?_put_self _ hroot]
  · rw [t.node?_put_ne _ heq, t'.node?_put_ne _ heq]
    exact h l hl

theorem writeFile_together (now : Int) (content : Bytes) (h : AgreeOff part t t')
    (hpath : KeepsOut part t cwd (Path.withoutSlashes path)) :
    Together (Alongside part t t') (writeFile t cwd now path content)
      (writeFile t' cwd now path content) := by
  simp only [writeFile, hpath.resolve h]
  cases hl : resolve t cwd true (Path.withoutSlashes path) with
  | error e => exact .inl ⟨e, rfl, rfl⟩
  | ok l =>
    have hout := hpath.not_at hl
    simp only [← h l hout]
    split
    · exact .inl ⟨_, rfl, rfl⟩
    · split
      · next f hnode => exact .inr ⟨_, _, rfl, rfl, alongside_put h hout (.inr ⟨f, hnode⟩) _⟩
      · next hnode => exact .inr ⟨_, _, rfl, rfl, alongside_put h hout (.inl hnode) _⟩
      · exact .inl ⟨_, rfl, rfl⟩

theorem createFile_together (now : Int) (content : Bytes) (h : AgreeOff part t t')
    (hpath : KeepsOut part t cwd path) :
    Together (Alongside part t t') (createFile t cwd now path content)
      (createFile t' cwd now path content) := by
  simp only [createFile, hpath.resolve h]
  cases hl : resolve t cwd false path with
  | error e => exact .inl ⟨e, rfl, rfl⟩
  | ok l =>
    have hout := hpath.not_at hl
    simp only [← h l hout]
    split
    · next hnode => exact .inr ⟨_, _, rfl, rfl, alongside_put h hout (.inl hnode) _⟩
    · exact .inl ⟨_, rfl, rfl⟩

/-- A fresh file gets the same name in both trees, and its path keeps out of the part. -/
theorem createFresh_together (now : Int) (h : AgreeOff part t t')
    (hpaths : ∀ middle ∈ middles,
      KeepsOut part t cwd (Path.join base (name.start ++ middle ++ name.finish))) :
    Together (fun a a' => a'.1 = a.1 ∧ KeepsOut part a.2 cwd a.1 ∧ Alongside part t t' a.2 a'.2)
      (createFresh t cwd now base name middles) (createFresh t' cwd now base name middles) := by
  induction middles with
  | nil => exact .inl ⟨_, rfl, rfl⟩
  | cons middle others ih =>
    have hpath := hpaths middle List.mem_cons_self
    rcases createFile_together now [] h hpath with
      ⟨e, hfile, hfile'⟩ | ⟨u, u', hfile, hfile', hu⟩
    · simp only [createFresh, hfile, hfile']
      split
      · exact ih fun middle hmiddle => hpaths middle (List.mem_cons_of_mem _ hmiddle)
      · exact .inl ⟨_, rfl, rfl⟩
    · simp only [createFresh, hfile, hfile']
      exact .inr ⟨_, _, rfl, rfl, rfl, hpath.of_bearing hu.bearing, hu⟩

/-- A file that is removed by a path that keeps out of a part was not in it. -/
theorem spared_of_removeFile (hpath : KeepsOut part t cwd path)
    (h : removeFile t cwd path = .ok t') : Spared part t t' := by
  unfold removeFile at h
  split at h
  · cases h
  · next l hl =>
    split at h
    · cases h
    · cases h
    · cases h
      exact spared_erase (hpath.not_at hl)

end PromptRunner.Files
