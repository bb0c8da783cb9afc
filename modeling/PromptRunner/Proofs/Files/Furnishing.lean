import PromptRunner.Proofs.Files.Contents
import PromptRunner.Proofs.Files.Outward
import PromptRunner.Proofs.Files.Touching

/-!
# Which directories are made

A directory is made with those that it lies in, and none is made for nothing: each new one is where
the path leads afterwards, or where one leads that it lies in by its text. This holds however far
the making came before it met an error.
-/

namespace PromptRunner.Files

open PromptRunner.Text

variable {t t' made : Tree} {cwd loc l : Location} {path wider directory name : String}

/-! ## Outer paths -/

/-- What stands before a relative path that is joined to a directory. -/
theorem exists_join_lead (directory : String) :
    ∃ lead, (lead = [] ∨ ∃ front, lead = front ++ ['/']) ∧
      ∀ path, Path.isAbsolute path = false →
        (Path.join directory path).toList = lead ++ path.toList := by
  rcases hlast : directory.toList.getLast? with _ | c
  · refine ⟨[], .inl rfl, fun path hpath => ?_⟩
    simp only [Path.join, hpath, hlast, Bool.false_eq_true, if_false, List.nil_append]
  · by_cases hc : c = '/'
    · subst hc
      obtain ⟨front, hfront⟩ := List.getLast?_eq_some_iff.1 hlast
      refine ⟨directory.toList, .inr ⟨front, hfront⟩, fun path hpath => ?_⟩
      simp only [Path.join, hpath, hlast, Bool.false_eq_true, if_false, String.toList_append]
    · refine ⟨directory.toList ++ ['/'], .inr ⟨_, rfl⟩, fun path hpath => ?_⟩
      simp [Path.join, hpath, hlast]

theorem exists_pieces_lead {lead : List Char} (h : lead = [] ∨ ∃ front, lead = front ++ ['/']) :
    ∃ before, ∀ name, Plain name → Path.pieces (lead ++ name.toList) = before ++ [name.toList] := by
  rcases h with rfl | ⟨front, rfl⟩
  · exact ⟨[], fun name hname => cutAt_of_notMem hname.noSlash⟩
  · refine ⟨Path.pieces front, fun name hname => ?_⟩
    rw [List.append_assoc, List.singleton_append, Path.pieces, cutAt_append,
      cutAt_of_notMem hname.noSlash]
    rfl

/-- A path that ends in a name lies in another one, which is the same for every name. -/
theorem exists_parent_join (directory : String) :
    ∃ outer, ∀ name, Plain name → Path.parent? (Path.join directory name) = some outer := by
  obtain ⟨lead, hlead, hjoin⟩ := exists_join_lead directory
  obtain ⟨before, hbefore⟩ : ∃ before, ∀ name, Plain name → Path.pieces
      (if Path.isAbsolute directory = true then (Path.join directory name).toList.drop 1
      else (Path.join directory name).toList) = before ++ [name.toList] := by
    have hbody : ∀ name, Plain name → (Path.join directory name).toList = lead ++ name.toList :=
      fun name hname => hjoin name hname.not_absolute
    cases habsolute : Path.isAbsolute directory with
    | false =>
      obtain ⟨before, hbefore⟩ := exists_pieces_lead hlead
      refine ⟨before, fun name hname => ?_⟩
      rw [if_neg Bool.false_ne_true, hbody name hname, hbefore name hname]
    | true =>
      -- what stands before the name begins with the slash of the root
      have hhead : ∀ name, Plain name → (lead ++ name.toList).head? = some '/' :=
        fun name hname => by
          rw [← hbody name hname, ← isAbsolute_iff,
            isAbsolute_join_relative directory hname.not_absolute, habsolute]
      cases lead with
      | nil =>
        refine ⟨[], fun name hname => absurd ?_ hname.noSlash⟩
        exact List.mem_of_mem_head? (hhead name hname)
      | cons c lead =>
        have hlead' : lead = [] ∨ ∃ front, lead = front ++ ['/'] := by
          obtain hnil | ⟨front, hfront⟩ := hlead
          · cases hnil
          · cases front with
            | nil => exact .inl (List.cons.inj hfront).2
            | cons d front => exact .inr ⟨front, (List.cons.inj hfront).2⟩
        obtain ⟨before, hbefore⟩ := exists_pieces_lead hlead'
        refine ⟨before, fun name hname => ?_⟩
        rw [if_pos rfl, hbody name hname, ← hbefore name hname]
        rfl
  refine ⟨String.ofList
    (let rest := joinWith '/' (Path.dropIdle (Path.isAbsolute directory) before.reverse).reverse
    if Path.isAbsolute directory = true then '/' :: rest else rest), fun name hname => ?_⟩
  simp only [Path.parent?, isAbsolute_join_relative directory hname.not_absolute,
    hbefore name hname, List.reverse_append, List.reverse_singleton, List.singleton_append,
    dropIdle_of_not_idle hname.notIdle]

theorem Walkable.outer (h : Walkable t cwd path) (hwider : Outer path wider) :
    Walkable t cwd wider := by
  induction hwider with
  | self => exact h
  | parent _ hparent ih => exact ih.parent hparent

/-! ## What is made -/

/-- A tree with more directories: each new one is where a path leads, or one that it lies in. -/
def Furnished (t t' : Tree) (cwd : Location) (path : String) : Prop :=
  ∀ l, t'.node? l = t.node? l ∨ t.node? l = none ∧ ∃ outer, Outer path outer ∧
    stat t' cwd (Path.withoutSlashes outer) = .ok (l, .directory)

namespace Furnished

theorem refl (t : Tree) (cwd : Location) (path : String) : Furnished t t cwd path :=
  fun _ => .inl rfl

theorem grows (h : Furnished t t' cwd path) : Grows t t' := by
  intro l
  rcases h l with hsame | ⟨hfree, outer, -, hstat⟩
  · exact .inl hsame
  · exact .inr ⟨hfree, (stat_iff.1 hstat).2⟩

/-- What is made for an outer path is made for the path. -/
theorem widen (h : Furnished t t' cwd wider) (hwider : Outer path wider) :
    Furnished t t' cwd path := by
  intro l
  refine (h l).imp_right fun ⟨hfree, outer, houter, hstat⟩ => ⟨hfree, outer, ?_, hstat⟩
  clear hstat
  induction houter with
  | self => exact hwider
  | parent _ hparent ih => exact .parent ih hparent

theorem congr (h : Furnished t made cwd path) (hsame : ∀ l, t'.node? l = made.node? l) :
    Furnished t t' cwd path := by
  have hkeeps : Keeps made t' :=
    ⟨fun hnode => (hsame _).trans hnode, fun hnode => (hsame _).trans hnode⟩
  intro l
  rw [hsame l]
  refine (h l).imp_right fun ⟨hfree, outer, houter, hstat⟩ => ⟨hfree, outer, houter, ?_⟩
  exact stat_directory_keeps hkeeps hstat

/-- One more directory, where the path leads. -/
theorem createDirectory (h : Furnished t made cwd path)
    (hmade : createDirectory made cwd path = .ok t') : Furnished t t' cwd path := by
  have hgrows := grows_of_createDirectory hmade
  unfold Files.createDirectory at hmade
  split at hmade
  · cases hmade
  · next loc hloc =>
    split at hmade
    · next hfree =>
      cases hmade
      have hnew := made.node?_put_self .directory (ne_root_of_free hfree)
      intro l
      by_cases hl : l = loc
      · subst hl
        have hstat := stat_of_resolve (by nofun) (resolve_keeps hgrows.keeps hloc) hnew
        refine .inr ⟨?_, path, .self, hstat⟩
        rcases h.grows l with hsame | ⟨hbefore, -⟩
        · rw [← hsame, hfree]
        · exact hbefore
      · rw [made.node?_put_ne _ hl]
        refine (h l).imp_right fun ⟨hbefore, outer, houter, hstat⟩ => ⟨hbefore, outer, houter, ?_⟩
        exact stat_directory_keeps hgrows.keeps hstat
    · cases hmade

end Furnished

theorem furnished_of_createMissing {above : Tree → Except (IoError × Tree) Tree}
    (habove : Furnished t (madeSoFar (above t)) cwd path) :
    Furnished t (madeSoFar (createMissing above t cwd path)) cwd path := by
  have hrefl := Furnished.refl t cwd path
  unfold createMissing
  split
  · next hmade => exact hrefl.createDirectory hmade
  · split
    · split
      · next hstopped =>
        rw [hstopped] at habove
        exact habove
      · next hmade =>
        rw [hmade] at habove
        split
        · next hlast => exact habove.createDirectory hlast
        · split <;> exact habove
    · split <;> exact hrefl

theorem furnished_of_createUpwards (parts : Nat) (t : Tree) (cwd : Location) (path : String) :
    Furnished t (madeSoFar (createUpwards parts t cwd path)) cwd path := by
  induction parts generalizing path with
  | zero => exact .refl t cwd path
  | succ parts ih =>
    rw [createUpwards]
    split
    · exact .refl t cwd path
    · split
      · exact .refl t cwd path
      · next parent hparent =>
        exact furnished_of_createMissing ((ih parent).widen (.parent .self hparent))

theorem furnished_of_createDirectories (t : Tree) (cwd : Location) (path : String) :
    Furnished t (madeSoFar (createDirectories t cwd path)) cwd path :=
  furnished_of_createUpwards _ t cwd path

end PromptRunner.Files
