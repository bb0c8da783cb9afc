import PromptRunner.Proofs.Cache.Storing
import PromptRunner.Proofs.Files.Touching
import PromptRunner.Proofs.Generation

/-!
# What answering does to files

Answering looks at one path and stores at the same. So all that can change are the places that this
path may name, where an old answer is removed or a new one put, and those that its outer paths may
name, where directories are made. The temporary file behind an answer does not show: it is gone
when answering ends.
-/

namespace PromptRunner.Cache

open PromptRunner.Files

variable {t t' : Tree} {cwd l : Location} {path : String} {now limit : Int} {names : List String}
  {entry : Entry}

theorem discard_frame (t : Tree) (cwd : Location) (path : String) :
    NoNewLinks t (discard t cwd path) ∧
      ∀ l, (discard t cwd path).node? l = t.node? l ∨ MayName t cwd path l := by
  unfold discard
  split
  · next hremoved => exact removeFile_frame hremoved
  · exact ⟨.refl t, fun _ => .inl rfl⟩

theorem lookup_frame (t : Tree) (cwd : Location) (now limit : Int) (path : String) :
    NoNewLinks t (lookup t cwd now limit path).2 ∧
      ∀ l, (lookup t cwd now limit path).2.node? l = t.node? l ∨ MayName t cwd path l := by
  unfold lookup
  split
  · exact ⟨.refl t, fun _ => .inl rfl⟩
  · exact discard_frame t cwd path
  · exact ⟨.refl t, fun _ => .inl rfl⟩

theorem prepared_frame (t : Tree) (cwd : Location) (path : String) (l : Location) :
    (prepared t cwd path).node? l = t.node? l ∨ MayMake t cwd path l := by
  unfold prepared
  cases hparent : Path.parent? path with
  | none => exact .inl rfl
  | some parent =>
    refine (createDirectories_frame t cwd parent l).imp_right ?_
    rintro ⟨outer, houter, hname⟩
    exact ⟨outer, houter.of_parent hparent, hname⟩

theorem store_frame (t : Tree) (cwd : Location) (now : Int) (names : List String) (path : String)
    (entry : Entry) (l : Location) :
    (store t cwd now names path entry).2.node? l = t.node? l ∨ MayMake t cwd path l := by
  have hgrows := grows_prepared t cwd path
  cases hstore : store t cwd now names path entry with
  | mk outcome t' =>
    cases outcome with
    | error e =>
      rw [store_error_same hstore l]
      exact prepared_frame t cwd path l
    | ok =>
      obtain ⟨loc, hloc, -, -, hsame⟩ := store_ok hstore
      by_cases hl : l = loc
      · exact .inr ⟨path, .self, _, hgrows.noNewLinks, .inl (hl ▸ hloc)⟩
      · rw [hsame l hl]
        exact prepared_frame t cwd path l

end PromptRunner.Cache

namespace PromptRunner.Generation

open PromptRunner.Files

variable {s : Surroundings} {directory : String} {d : Demand}

theorem keeping_frame (ask : Ask) (s : Surroundings) (t : Tree) (directory : String) (d : Demand)
    (l : Location) :
    (keeping ask s t directory d).2.node? l = t.node? l ∨
      MayMake t s.cwd (Cache.filePath directory d.model d.prompt) l := by
  unfold keeping
  split
  · exact .inl rfl
  · exact Cache.store_frame t s.cwd s.now s.names _ _ l

/-- Answering changes nothing but what may lie at the demand's path, and what that lies in. -/
theorem generate_frame (ask : Ask) (t : Tree) (l : Location) :
    (generate ask s t directory d).tree.node? l = t.node? l ∨
      MayMake t s.cwd (Cache.filePath directory d.model d.prompt) l := by
  cases huses : usesCache d with
  | false =>
    rw [generate_without_cache huses]
    exact .inl rfl
  | true =>
    obtain ⟨hlinks, hlookup⟩ := Cache.lookup_frame t s.cwd s.now d.limit
      (Cache.filePath directory d.model d.prompt)
    have hlooked := (hlookup l).imp_right fun hname =>
      (⟨_, .self, hname⟩ : MayMake t s.cwd (Cache.filePath directory d.model d.prompt) l)
    cases hfound : (Cache.lookup t s.cwd s.now d.limit
        (Cache.filePath directory d.model d.prompt)).1 with
    | some answer =>
      rw [generate_hit huses hfound]
      exact hlooked
    | none =>
      rw [generate_miss huses hfound]
      rcases keeping_frame ask s (Cache.lookup t s.cwd s.now d.limit
        (Cache.filePath directory d.model d.prompt)).2 directory d l with hsame | hmake
      · rw [hsame]
        exact hlooked
      · exact .inr (hmake.of_noNewLinks hlinks)

end PromptRunner.Generation
