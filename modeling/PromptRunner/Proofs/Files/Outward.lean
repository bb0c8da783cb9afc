import PromptRunner.Proofs.Files.Contents
import PromptRunner.Proofs.Files.Halves
import PromptRunner.Proofs.Files.Present
import PromptRunner.Proofs.Text.Blank

/-!
# Directories that are there

A path that leads to a directory leads through directories, so that those it lies in by its text are
there as well. To make them all once more changes nothing, from whichever of them one starts.
-/

namespace PromptRunner.Files

open PromptRunner.Text

variable {t made : Tree} {follow : Bool} {links : Nat} {cwd loc l : Location} {a rest : List Step}
  {step : Step} {path outer directory : String}

/-! ## Ways to a directory -/

/-- A way to a directory may end in a slash. -/
theorem followSteps_stay (h : followSteps t true links loc a = .ok l)
    (hd : t.node? l = some .directory) : followSteps t true links loc (a ++ [.stay]) = .ok l := by
  refine followSteps_true ?_ (followSteps_append_stay (.inl (Eq.refl [])) hd ?_)
  · rw [hd]
    nofun
  · rwa [List.append_nil]

theorem followSteps_stays (h : followSteps t true links loc a = .ok l)
    (hd : t.node? l = some .directory) (n : Nat) :
    followSteps t true links loc (a ++ List.replicate n .stay) = .ok l := by
  induction n with
  | zero => rwa [List.replicate_zero, List.append_nil]
  | succ n ih =>
    rw [List.replicate_succ', ← List.append_assoc]
    exact followSteps_stay ih hd

/-! ## The text of a path without its last part -/

/-- The parts that are left of a path are a beginning of its parts, and not all of them. -/
theorem pieces_of_parent {absolute : Bool} {pieces before : List (List Char)} {last : List Char}
    (h : Path.dropIdle absolute pieces.reverse = last :: before) :
    ∃ next behind, pieces = (Path.dropIdle absolute before).reverse ++ next :: behind := by
  obtain ⟨idle, hidle, -⟩ := exists_dropIdle absolute pieces.reverse
  obtain ⟨idle', hidle', -⟩ := exists_dropIdle absolute before
  rw [h, hidle'] at hidle
  have hsplit : pieces = (Path.dropIdle absolute before).reverse ++
      (idle'.reverse ++ (last :: idle.reverse)) := by
    rw [← List.reverse_reverse pieces, hidle]
    simp
  rw [hsplit]
  cases hbehind : idle'.reverse ++ last :: idle.reverse with
  | nil => simp at hbehind
  | cons next behind => exact ⟨next, behind, rfl⟩

theorem slash_notMem_of_pieces {s : List Char} {front rest : List (List Char)}
    (h : Path.pieces s = front ++ rest) : ∀ piece ∈ front, '/' ∉ piece := by
  intro piece hpiece
  refine not_mem_of_mem_cutAt (s := s) ?_
  rw [← Path.pieces, h]
  exact List.mem_append_left rest hpiece

/-- The slash of the root stands behind an empty piece. -/
theorem pieces_slash (s : List Char) : Path.pieces ('/' :: s) = [] :: Path.pieces s := rfl

/-- Parts that are put together are followed as they were, with one stay where there are none. -/
theorem steps_joinWith {parts : List (List Char)} (h : ∀ piece ∈ parts, '/' ∉ piece) :
    (Path.pieces (joinWith '/' parts)).map Path.stepOf = parts.map Path.stepOf ∨
      (Path.pieces (joinWith '/' parts)).map Path.stepOf = parts.map Path.stepOf ++ [.stay] := by
  by_cases hne : parts = []
  · subst hne
    exact .inr rfl
  · rw [Path.pieces, cutAt_joinWith hne h]
    exact .inl rfl

theorem isAbsolute_joinWith {parts behind : List (List Char)} {next : List Char}
    (hrelative : Path.isAbsolute path = false)
    (h : Path.pieces path.toList = parts ++ next :: behind) :
    Path.isAbsolute (String.ofList (joinWith '/' parts)) = false := by
  rw [Bool.eq_false_iff, Ne, isAbsolute_iff, String.toList_ofList]
  intro hhead
  by_cases hparts : parts = []
  · subst hparts
    cases hhead
  · have htext : path.toList = joinWith '/' parts ++ '/' :: joinWith '/' (next :: behind) := by
      rw [← joinWith_append hparts (List.cons_ne_nil _ _), ← h, Path.pieces, joinWith_cutAt]
    rw [← Bool.not_eq_true, isAbsolute_iff, htext, List.head?_append, hhead] at hrelative
    exact hrelative rfl

/-- The empty piece in front of the slash of the root. -/
def rootPieces (absolute : Bool) : List (List Char) := if absolute then [[]] else []

/-- The pieces of a path and of its parent, behind the root: `front` is what is left of those of the
path without the last and without what is idle before it. -/
theorem parent?_spec (h : Path.parent? path = some outer) :
    ∃ body last before front next behind,
      Path.pieces path.toList = rootPieces (Path.isAbsolute path) ++ Path.pieces body ∧
        Path.dropIdle (Path.isAbsolute path) (Path.pieces body).reverse = last :: before ∧
        front = (Path.dropIdle (Path.isAbsolute path) before).reverse ∧
        Path.pieces body = front ++ next :: behind ∧
        Path.isAbsolute outer = Path.isAbsolute path ∧
        Path.pieces outer.toList =
          rootPieces (Path.isAbsolute path) ++ Path.pieces (joinWith '/' front) := by
  simp only [Path.parent?] at h
  split at h
  · cases h
  · next last before hparts =>
    cases h
    obtain ⟨next, behind, hpieces⟩ := pieces_of_parent hparts
    refine ⟨_, last, before, _, next, behind, ?_, hparts, rfl, hpieces, ?_⟩
    · cases habsolute : Path.isAbsolute path with
      | true =>
        obtain ⟨body, hbody⟩ := List.head?_eq_some_iff.1 (isAbsolute_iff.1 habsolute)
        rw [hbody, pieces_slash]
        rfl
      | false => rfl
    · cases habsolute : Path.isAbsolute path with
      | true =>
        rw [if_pos rfl, String.toList_ofList, pieces_slash]
        exact ⟨by simp [isAbsolute_iff], rfl⟩
      | false =>
        rw [habsolute, if_neg Bool.false_ne_true] at hpieces
        rw [if_neg Bool.false_ne_true, String.toList_ofList]
        exact ⟨isAbsolute_joinWith habsolute hpieces, rfl⟩

/-- The steps of the parent are a beginning of those of the path, but for a slash. -/
theorem steps_parent (cwd : Location) (h : Path.parent? path = some outer) :
    startOf cwd outer = startOf cwd path ∧
      ∃ front step rest, Path.steps path = front ++ step :: rest ∧
        (Path.steps outer = front ∨ Path.steps outer = front ++ [.stay]) := by
  obtain ⟨body, last, before, front, next, behind, hpath, -, -, hpieces, habsolute, houter⟩ :=
    parent?_spec h
  have hsteps := steps_joinWith (slash_notMem_of_pieces hpieces)
  refine ⟨by rw [startOf, startOf, habsolute],
    (rootPieces (Path.isAbsolute path) ++ front).map Path.stepOf, Path.stepOf next,
    behind.map Path.stepOf, ?_, ?_⟩
  · rw [Path.steps, hpath, hpieces]
    simp
  · rw [Path.steps, houter, List.map_append, List.map_append, List.append_assoc]
    exact hsteps.imp (congrArg _) (congrArg _)

/-! ## Ways that lead to directories -/

/-- A path whose steps lead to a directory, whether or not the system takes it. -/
def Walkable (t : Tree) (cwd : Location) (path : String) : Prop :=
  ∃ d, followSteps t true linkLimit (startOf cwd path) (Path.steps path) = .ok d ∧
    t.node? d = some .directory

/-- What leads on from the parent leads to it. -/
theorem walkable_of_beginning {front : List Step} (hstart : startOf cwd outer = loc)
    (hsteps : Path.steps outer = front ∨ Path.steps outer = front ++ [.stay])
    (h : followSteps t follow linkLimit loc (front ++ step :: rest) = .ok l) :
    Walkable t cwd outer := by
  obtain ⟨d, hgo, hd⟩ := followSteps_beginning h
  refine ⟨d, ?_, hd⟩
  rw [hstart]
  rcases hsteps with hsame | hslash
  · rwa [hsame]
  · rw [hslash]
    exact followSteps_stay hgo hd

theorem Walkable.parent (h : Walkable t cwd path) (hparent : Path.parent? path = some outer) :
    Walkable t cwd outer := by
  obtain ⟨d, hgo, -⟩ := h
  obtain ⟨hstart, front, step, rest, hpath, houter⟩ := steps_parent cwd hparent
  rw [hpath] at hgo
  exact walkable_of_beginning hstart houter hgo

/-- Where names can be joined to a directory, the text before the name leads to one. -/
theorem walkable_of_reach {name : String} (hname : Plain name)
    (h : reach t cwd directory = .ok l)
    (hparent : Path.parent? (Path.join directory name) = some outer) : Walkable t cwd outer := by
  obtain ⟨hstart, front, step, rest, hpath, houter⟩ := steps_parent cwd hparent
  rw [startOf_join hname.not_absolute] at hstart
  rw [steps_join hname] at hpath
  -- what the parent's steps leave out is the name at least
  obtain ⟨between, last, hbetween⟩ : ∃ between last, step :: rest = between ++ [last] :=
    ⟨_, _, (List.dropLast_concat_getLast (List.cons_ne_nil step rest)).symm⟩
  rw [hbetween, ← List.append_assoc] at hpath
  obtain ⟨hlead, -⟩ := List.append_inj' hpath rfl
  unfold reach at h
  rw [hlead, List.append_assoc] at h
  obtain ⟨next, more, hmore⟩ := List.exists_cons_of_ne_nil
    (show between ++ [Step.stay] ≠ [] by simp)
  rw [hmore] at h
  exact walkable_of_beginning hstart houter h

/-! ## Making them again -/

theorem Walkable.withoutSlashes (h : Walkable t cwd path) (hempty : path.isEmpty = false) :
    ∃ l, followSteps t false linkLimit (startOf cwd (Path.withoutSlashes path))
        (Path.steps (Path.withoutSlashes path)) = .ok l ∧ t.node? l ≠ none := by
  obtain ⟨d, hgo, hd⟩ := h
  obtain ⟨n, hsteps⟩ := steps_withoutSlashes hempty
  rw [hsteps, ← startOf_withoutSlashes hempty] at hgo
  have hgo := followSteps_drop_stays hgo
  obtain ⟨l, hl⟩ := followSteps_false hgo
  refine ⟨l, hl, fun hfree => ?_⟩
  rw [followSteps_true (by rw [hfree]; nofun) hl] at hgo
  cases hgo
  rw [hd] at hfree
  cases hfree

/-- Where a directory is there, none can be made, and not because the way to it is missing. -/
theorem createDirectory_of_walkable (h : Walkable t cwd path) (hempty : path.isEmpty = false) :
    ∃ e, createDirectory t cwd path = .error e ∧ e ≠ .system .noEntry := by
  obtain ⟨l, hl, htaken⟩ := h.withoutSlashes hempty
  have hempty' : (Path.withoutSlashes path).isEmpty = false := (exists_withoutSlashes hempty).1
  simp only [createDirectory, resolve, hempty', hl, Bool.false_eq_true, if_false]
  split
  · next hrefused =>
    split at hrefused
    · cases hrefused
      exact ⟨_, rfl, by decide⟩
    · split at hrefused
      · cases hrefused
        exact ⟨_, rfl, by decide⟩
      · cases hrefused
  · next loc hloc =>
    split at hloc
    · cases hloc
    · split at hloc
      · cases hloc
      · cases hloc
        obtain ⟨node, hnode⟩ := Option.ne_none_iff_exists'.1 htaken
        rw [hnode]
        exact ⟨_, rfl, by decide⟩

/-- Making a directory that is there changes nothing. -/
theorem createDirectories_of_walkable (h : Walkable t cwd path) :
    madeSoFar (createDirectories t cwd path) = t := by
  rw [createDirectories, createUpwards]
  split
  · rfl
  · next hempty =>
    split
    · rfl
    · obtain ⟨e, he, hentry⟩ := createDirectory_of_walkable h (eq_false_of_ne_true hempty)
      simp only [createMissing, he, if_neg hentry]
      split <;> rfl

theorem walkable_of_stat (h : stat t cwd path = .ok (l, .directory)) : Walkable t cwd path :=
  have ⟨hl, hd⟩ := stat_iff.1 h
  ⟨l, (resolve_iff.1 hl).2, hd⟩

theorem walkable_of_isDirectory (h : isDirectory t cwd path = true) : Walkable t cwd path := by
  obtain ⟨l, hstat⟩ := isDirectory_iff.1 h
  exact walkable_of_stat hstat

/-- A directory that has been made can be walked to. -/
theorem walkable_of_createDirectory (hempty : path.isEmpty = false)
    (h : createDirectory t cwd path = .ok made) : Walkable made cwd path := by
  have hkeeps := (grows_of_createDirectory h).keeps
  unfold createDirectory at h
  split at h
  · cases h
  · next loc hloc =>
    split at h
    · next hfree =>
      cases h
      have hd := t.node?_put_self .directory (ne_root_of_free hfree)
      obtain ⟨-, hgo⟩ := resolve_iff.1 (resolve_keeps hkeeps hloc)
      obtain ⟨n, hsteps⟩ := steps_withoutSlashes hempty
      refine ⟨loc, ?_, hd⟩
      rw [hsteps, ← startOf_withoutSlashes hempty]
      exact followSteps_stays (followSteps_true (by rw [hd]; nofun) hgo) hd n
    · cases h

theorem walkable_of_createMissing {above : Tree → Except (IoError × Tree) Tree}
    (hempty : path.isEmpty = false) (h : createMissing above t cwd path = .ok made) :
    Walkable made cwd path := by
  unfold createMissing at h
  split at h
  · next hmade =>
    cases h
    exact walkable_of_createDirectory hempty hmade
  · split at h
    · split at h
      · cases h
      · split at h
        · next hmade =>
          cases h
          exact walkable_of_createDirectory hempty hmade
        · split at h
          · next hd =>
            cases h
            exact walkable_of_isDirectory hd
          · cases h
    · split at h
      · next hd =>
        cases h
        exact walkable_of_isDirectory hd
      · cases h

/-- Making a directory that has been made changes nothing. -/
theorem createDirectories_twice (h : createDirectories t cwd path = .ok made) :
    madeSoFar (createDirectories made cwd path) = made := by
  have hagain := h
  rw [createDirectories, createUpwards] at h
  split at h
  · next hempty =>
    cases h
    rw [hagain]
    rfl
  · next hempty =>
    split at h
    · cases h
      rw [hagain]
      rfl
    · exact createDirectories_of_walkable
        (walkable_of_createMissing (eq_false_of_ne_true hempty) h)

/-! ## The directory of a file -/

/-- A path without its last part is a beginning of its text. -/
theorem exists_toList_parent (h : Path.parent? path = some outer) :
    ∃ tail, path.toList = outer.toList ++ tail := by
  obtain ⟨body, last, before, front, next, behind, hpath, -, -, hpieces, -, houter⟩ :=
    parent?_spec h
  -- so it is behind the root
  obtain ⟨tail, htail⟩ : ∃ tail, body = joinWith '/' front ++ tail := by
    have hbody : joinWith '/' (front ++ next :: behind) = body := by
      rw [← hpieces]
      exact joinWith_cutAt '/' body
    by_cases hnil : front = []
    · exact ⟨body, by rw [hnil]; rfl⟩
    · rw [joinWith_append hnil (List.cons_ne_nil _ _)] at hbody
      exact ⟨_, hbody.symm⟩
  have htext : ∀ (s : List Char) {pieces : List (List Char)}, Path.pieces s =
      rootPieces (Path.isAbsolute path) ++ pieces → pieces ≠ [] →
        s = (if Path.isAbsolute path then ['/'] else []) ++ joinWith '/' pieces := by
    intro s pieces hs hne
    rw [← joinWith_cutAt '/' s, ← Path.pieces, hs]
    cases Path.isAbsolute path with
    | true => exact joinWith_append (List.cons_ne_nil _ _) hne
    | false => rfl
  have hjoined : ∀ s, joinWith '/' (Path.pieces s) = s := joinWith_cutAt '/'
  refine ⟨tail, ?_⟩
  rw [htext _ hpath (cutAt_ne_nil _ _), htext _ houter (cutAt_ne_nil _ _), hjoined, hjoined,
    List.append_assoc, ← htail]

/-- Where the path of a file leads, its directory is there, and making it changes nothing. -/
theorem createDirectories_of_way {name : String} (hname : Plain name)
    (h : resolve t cwd false (Path.join directory name) = .ok l)
    (hparent : Path.parent? (Path.join directory name) = some outer) :
    createDirectories t cwd outer = .ok t := by
  obtain ⟨hpath, -, d, hreach, -⟩ := (resolve_join hname).1 h
  cases hempty : outer.isEmpty with
  | true => simp [createDirectories, createUpwards, hempty]
  | false =>
    obtain ⟨tail, htail⟩ := exists_toList_parent hparent
    obtain ⟨l, hgo, hd⟩ := walkable_of_reach hname hreach hparent
    exact createDirectories_of_stat
      (stat_iff.2 ⟨resolve_iff.2 ⟨hpath.of_append htail hempty, hgo⟩, hd⟩)

end PromptRunner.Files
