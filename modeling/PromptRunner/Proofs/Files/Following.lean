import Mathlib.Tactic.SplitIfs
import PromptRunner.Files.Resolve

/-!
# Where a path leads

The way of a path depends on the directories and the links of a tree and on nothing else: a regular
file ends a way, and a free place does. So a tree that has the directories and the links of another
leads every path to where the other leads it. Files may come and go between the two, and so may
directories in free places.

A path that ends in a name is the way to a directory and the name below it. `reach` is the first
half, and `resolve_join` says that there is no more to it: whatever the name, the directory is the
same. That is what the files of one directory have in common, and all that is said of them later
rests on it.
-/

namespace PromptRunner.Files

open PromptRunner.Text

variable {t t' : Tree} {follow : Bool} {links : Nat} {cwd loc l : Location} {rest s : List Step}
variable {through through' : Location → List Step → Except Errno Location} {name target : String}

/-- A tree has the directories and the links of another. -/
structure Keeps (t t' : Tree) : Prop where
  directory : ∀ {loc}, t.node? loc = some .directory → t'.node? loc = some .directory
  link : ∀ {loc target}, t.node? loc = some (.link target) → t'.node? loc = some (.link target)

theorem Keeps.refl (t : Tree) : Keeps t t := ⟨id, id⟩

theorem Keeps.trans {t'' : Tree} (h : Keeps t t') (h' : Keeps t' t'') : Keeps t t'' :=
  ⟨fun hd => h'.directory (h.directory hd), fun hl => h'.link (h.link hl)⟩

/-- Trees that differ in one place, where there is neither directory nor link. -/
theorem Keeps.of_except (place : Location)
    (h : ∀ other, other ≠ place → t'.node? other = t.node? other)
    (hdirectory : t.node? place ≠ some .directory)
    (hlink : ∀ target, t.node? place ≠ some (.link target)) : Keeps t t' := by
  constructor
  · intro loc hd
    have hne : loc ≠ place := fun e => hdirectory (e ▸ hd)
    rw [h loc hne, hd]
  · intro loc target hl
    have hne : loc ≠ place := fun e => hlink target (e ▸ hl)
    rw [h loc hne, hl]

theorem Keeps.of_free (place : Location)
    (h : ∀ other, other ≠ place → t'.node? other = t.node? other)
    (hfree : t.node? place = none) : Keeps t t' := by
  refine .of_except place h ?_ ?_
  · rw [hfree]
    nofun
  · rw [hfree]
    nofun

theorem Keeps.of_file (place : Location) {f : RegularFile}
    (h : ∀ other, other ≠ place → t'.node? other = t.node? other)
    (hfile : t.node? place = some (.file f)) : Keeps t t' := by
  refine .of_except place h ?_ ?_
  · rw [hfile]
    nofun
  · rw [hfile]
    nofun

/-! ## One step -/

theorem directory_of_followWith {step : Step}
    (h : followWith t follow through loc (step :: rest) = .ok l) :
    t.node? loc = some .directory := by
  by_cases hd : t.node? loc = some .directory
  · exact hd
  · have hcheck : t.isDirectoryAt loc = false := by simpa [Tree.isDirectoryAt] using hd
    simp only [followWith, hcheck] at h
    cases h

theorem followWith_stay (hd : t.node? loc = some .directory) :
    followWith t follow through loc (.stay :: rest) = followWith t follow through loc rest := by
  simp [followWith, Tree.isDirectoryAt, hd]

theorem followWith_up (hd : t.node? loc = some .directory) :
    followWith t follow through loc (.up :: rest) =
      followWith t follow through loc.tail rest := by
  simp [followWith, Tree.isDirectoryAt, hd]

theorem followWith_into (hd : t.node? loc = some .directory)
    (hlength : byteLength name.toList ≤ nameLimit) :
    followWith t follow through loc (.into name :: rest) =
      match t.node? (name :: loc) with
      | some (.link target) =>
        if rest.isEmpty && !follow then .ok (name :: loc)
        else through (startOf loc target) (Path.steps target ++ rest)
      | some _ => followWith t follow through (name :: loc) rest
      | none => if rest.isEmpty then .ok (name :: loc) else .error .noEntry := by
  have hcheck : t.isDirectoryAt loc = true := by simpa [Tree.isDirectoryAt] using hd
  rw [followWith, hcheck]
  exact if_neg (Nat.not_lt.2 hlength)

theorem length_of_followWith
    (h : followWith t follow through loc (.into name :: rest) = .ok l) :
    byteLength name.toList ≤ nameLimit := by
  refine Nat.not_lt.1 fun hlong => ?_
  have hcheck : t.isDirectoryAt loc = true := by
    simpa [Tree.isDirectoryAt] using directory_of_followWith h
  rw [followWith, hcheck] at h
  simp only [if_pos hlong] at h
  cases h

theorem followWith_last_iff :
    followWith t false through loc [.into name] = .ok l ↔
      t.node? loc = some .directory ∧ byteLength name.toList ≤ nameLimit ∧ l = name :: loc := by
  have hlast : t.node? loc = some .directory → byteLength name.toList ≤ nameLimit →
      followWith t false through loc [.into name] = .ok (name :: loc) := by
    intro hd hlength
    rw [followWith_into hd hlength]
    split <;> rfl
  constructor
  · intro h
    have hd := directory_of_followWith h
    have hlength := length_of_followWith h
    rw [hlast hd hlength] at h
    exact ⟨hd, hlength, (Except.ok.inj h).symm⟩
  · rintro ⟨hd, hlength, rfl⟩
    exact hlast hd hlength

/-- A name on the way leads through a link or into a directory. -/
theorem followWith_into_iff (hrest : rest ≠ []) :
    followWith t follow through loc (.into name :: rest) = .ok l ↔
      t.node? loc = some .directory ∧ byteLength name.toList ≤ nameLimit ∧
        ((∃ target, t.node? (name :: loc) = some (.link target) ∧
            through (startOf loc target) (Path.steps target ++ rest) = .ok l) ∨
          (t.node? (name :: loc) = some .directory ∧
            followWith t follow through (name :: loc) rest = .ok l)) := by
  have hempty : rest.isEmpty = false := by simpa using hrest
  constructor
  · intro h
    have hd := directory_of_followWith h
    have hlength := length_of_followWith h
    refine ⟨hd, hlength, ?_⟩
    rw [followWith_into hd hlength, hempty] at h
    split at h
    · next target hnode => exact .inl ⟨target, hnode, h⟩
    · next node hlink hnode =>
      obtain ⟨step, rest, rfl⟩ := List.exists_cons_of_ne_nil hrest
      exact .inr ⟨directory_of_followWith h, h⟩
    · cases h
  · rintro ⟨hd, hlength, ⟨target, hnode, h⟩ | ⟨hnode, h⟩⟩
    · rw [followWith_into hd hlength, hempty, hnode]
      exact h
    · rw [followWith_into hd hlength, hnode]
      exact h

/-! ## Whole ways -/

/-- A way that is not followed through its end leads to the same place in a tree with the same
directories and links. -/
theorem followWith_keeps (hk : Keeps t t')
    (hthrough : ∀ {loc s l}, through loc s = .ok l → through' loc s = .ok l)
    (h : followWith t false through loc s = .ok l) :
    followWith t' false through' loc s = .ok l := by
  induction s generalizing loc with
  | nil => exact h
  | cons step rest ih =>
    have hd := directory_of_followWith h
    have hd' := hk.directory hd
    cases step with
    | stay =>
      rw [followWith_stay hd] at h
      rw [followWith_stay hd']
      exact ih h
    | up =>
      rw [followWith_up hd] at h
      rw [followWith_up hd']
      exact ih h
    | into name =>
      by_cases hrest : rest = []
      · subst hrest
        obtain ⟨-, hlength, hl⟩ := followWith_last_iff.1 h
        exact followWith_last_iff.2 ⟨hd', hlength, hl⟩
      · obtain ⟨-, hlength, hnext⟩ := (followWith_into_iff hrest).1 h
        refine (followWith_into_iff hrest).2 ⟨hd', hlength, ?_⟩
        rcases hnext with ⟨target, hnode, hgo⟩ | ⟨hnode, hgo⟩
        · exact .inl ⟨target, hk.link hnode, hthrough hgo⟩
        · exact .inr ⟨hk.directory hnode, ih hgo⟩

theorem followSteps_keeps (hk : Keeps t t') (h : followSteps t false links loc s = .ok l) :
    followSteps t' false links loc s = .ok l := by
  induction links generalizing loc s l with
  | zero => exact followWith_keeps hk (fun hgo => by cases hgo) h
  | succ links ih => exact followWith_keeps hk ih h

/-- Where the way ends in no link, following through its end changes nothing. -/
theorem followWith_true (hl : ∀ target, t.node? l ≠ some (.link target))
    (hthrough : ∀ {loc s}, through loc s = .ok l → through' loc s = .ok l)
    (h : followWith t false through loc s = .ok l) :
    followWith t true through' loc s = .ok l := by
  induction s generalizing loc with
  | nil => exact h
  | cons step rest ih =>
    have hd := directory_of_followWith h
    cases step with
    | stay =>
      rw [followWith_stay hd] at h ⊢
      exact ih h
    | up =>
      rw [followWith_up hd] at h ⊢
      exact ih h
    | into name =>
      by_cases hrest : rest = []
      · subst hrest
        obtain ⟨-, hlength, rfl⟩ := followWith_last_iff.1 h
        rw [followWith_into hd hlength]
        split
        · next target hnode => exact absurd hnode (hl target)
        · rfl
        · rfl
      · obtain ⟨-, hlength, hnext⟩ := (followWith_into_iff hrest).1 h
        refine (followWith_into_iff hrest).2 ⟨hd, hlength, ?_⟩
        rcases hnext with ⟨target, hnode, hgo⟩ | ⟨hnode, hgo⟩
        · exact .inl ⟨target, hnode, hthrough hgo⟩
        · exact .inr ⟨hnode, ih hgo⟩

theorem followSteps_true (hl : ∀ target, t.node? l ≠ some (.link target))
    (h : followSteps t false links loc s = .ok l) : followSteps t true links loc s = .ok l := by
  induction links generalizing loc s with
  | zero => exact followWith_true hl (fun hgo => by cases hgo) h
  | succ links ih => exact followWith_true hl ih h

/-- A way that can be followed through its end can be followed up to it. -/
theorem followWith_false
    (hthrough : ∀ {loc s l}, through loc s = .ok l → ∃ l', through' loc s = .ok l')
    (h : followWith t true through loc s = .ok l) :
    ∃ l', followWith t false through' loc s = .ok l' := by
  induction s generalizing loc with
  | nil => exact ⟨l, h⟩
  | cons step rest ih =>
    have hd := directory_of_followWith h
    cases step with
    | stay =>
      rw [followWith_stay hd] at h ⊢
      exact ih h
    | up =>
      rw [followWith_up hd] at h ⊢
      exact ih h
    | into name =>
      by_cases hrest : rest = []
      · subst hrest
        exact ⟨name :: loc, followWith_last_iff.2 ⟨hd, length_of_followWith h, rfl⟩⟩
      · obtain ⟨-, hlength, hnext⟩ := (followWith_into_iff hrest).1 h
        rcases hnext with ⟨target, hnode, hgo⟩ | ⟨hnode, hgo⟩
        · obtain ⟨l', hl'⟩ := hthrough hgo
          exact ⟨l', (followWith_into_iff hrest).2
            ⟨hd, hlength, .inl ⟨target, hnode, hl'⟩⟩⟩
        · obtain ⟨l', hl'⟩ := ih hgo
          exact ⟨l', (followWith_into_iff hrest).2 ⟨hd, hlength, .inr ⟨hnode, hl'⟩⟩⟩

theorem followSteps_false (h : followSteps t true links loc s = .ok l) :
    ∃ l', followSteps t false links loc s = .ok l' := by
  induction links generalizing loc s l with
  | zero => exact followWith_false (fun hgo => by cases hgo) h
  | succ links ih => exact followWith_false ih h

/-- The way to a name is the way to its directory and the name. -/
theorem followWith_append_into
    (hthrough : ∀ {loc s l}, through loc (s ++ [.into name]) = .ok l ↔
      ∃ d, through loc (s ++ [.stay]) = .ok d ∧ byteLength name.toList ≤ nameLimit ∧
        l = name :: d) :
    followWith t false through loc (s ++ [.into name]) = .ok l ↔
      ∃ d, followWith t false through loc (s ++ [.stay]) = .ok d ∧
        byteLength name.toList ≤ nameLimit ∧ l = name :: d := by
  induction s generalizing loc with
  | nil =>
    rw [List.nil_append, List.nil_append, followWith_last_iff]
    constructor
    · rintro ⟨hd, hlength, hl⟩
      exact ⟨loc, followWith_stay hd, hlength, hl⟩
    · rintro ⟨d, h, hlength, hl⟩
      have hd := directory_of_followWith h
      rw [followWith_stay hd] at h
      cases h
      exact ⟨hd, hlength, hl⟩
  | cons step s ih =>
    by_cases hd : t.node? loc = some .directory
    · cases step with
      | stay =>
        rw [List.cons_append, List.cons_append, followWith_stay hd, followWith_stay hd]
        exact ih
      | up =>
        rw [List.cons_append, List.cons_append, followWith_up hd, followWith_up hd]
        exact ih
      | into on =>
        rw [List.cons_append, List.cons_append, followWith_into_iff (by simp), ih]
        simp only [followWith_into_iff (show s ++ [Step.stay] ≠ [] by simp),
          ← List.append_assoc, hthrough]
        constructor
        · rintro ⟨-, hlength, ⟨target, hnode, d, h⟩ | ⟨hnode, d, h⟩⟩
          · exact ⟨d, ⟨hd, hlength, .inl ⟨target, hnode, h.1⟩⟩, h.2⟩
          · exact ⟨d, ⟨hd, hlength, .inr ⟨hnode, h.1⟩⟩, h.2⟩
        · rintro ⟨d, ⟨-, hlength, ⟨target, hnode, h⟩ | ⟨hnode, h⟩⟩, hname⟩
          · exact ⟨hd, hlength, .inl ⟨target, hnode, d, h, hname⟩⟩
          · exact ⟨hd, hlength, .inr ⟨hnode, d, h, hname⟩⟩
    · constructor
      · intro h
        exact absurd (directory_of_followWith h) hd
      · rintro ⟨d, h, -⟩
        exact absurd (directory_of_followWith h) hd

theorem followSteps_append_into :
    followSteps t false links loc (s ++ [.into name]) = .ok l ↔
      ∃ d, followSteps t false links loc (s ++ [.stay]) = .ok d ∧
        byteLength name.toList ≤ nameLimit ∧ l = name :: d := by
  induction links generalizing loc s l with
  | zero =>
    refine followWith_append_into ⟨nofun, ?_⟩
    rintro ⟨d, h, -⟩
    cases h
  | succ links ih => exact followWith_append_into ih

/-- A way that is followed to a directory, with or without a slash at its end, leads to what the
steps to a name in it lead to. -/
theorem followWith_append_stay {slash : List Step} (hslash : slash = [] ∨ slash = [.stay])
    (hdirectory : t.node? l = some .directory)
    (hthrough : ∀ {loc s}, through loc (s ++ slash) = .ok l → through' loc (s ++ [.stay]) = .ok l)
    (h : followWith t true through loc (s ++ slash) = .ok l) :
    followWith t false through' loc (s ++ [.stay]) = .ok l := by
  induction s generalizing loc with
  | nil =>
    have hloc : loc = l := by
      rcases hslash with rfl | rfl
      · exact Except.ok.inj h
      · rw [List.nil_append, followWith_stay (directory_of_followWith h)] at h
        exact Except.ok.inj h
    rw [hloc, List.nil_append, followWith_stay hdirectory]
    rfl
  | cons step s ih =>
    rw [List.cons_append] at h ⊢
    have hd := directory_of_followWith h
    cases step with
    | stay =>
      rw [followWith_stay hd] at h ⊢
      exact ih h
    | up =>
      rw [followWith_up hd] at h ⊢
      exact ih h
    | into name =>
      have hlength := length_of_followWith h
      rw [followWith_into hd hlength] at h
      refine (followWith_into_iff (by simp)).2 ⟨hd, hlength, ?_⟩
      split at h
      · next target hnode =>
        rw [Bool.not_true, Bool.and_false, if_neg Bool.false_ne_true, ← List.append_assoc] at h
        refine .inl ⟨target, hnode, ?_⟩
        rw [← List.append_assoc]
        exact hthrough h
      · next node hlink hnode =>
        have hgo := ih h
        refine .inr ⟨?_, hgo⟩
        obtain ⟨first, rest, hrest⟩ := List.exists_cons_of_ne_nil
          (show s ++ [Step.stay] ≠ [] by simp)
        rw [hrest] at hgo
        exact directory_of_followWith hgo
      · next hnode =>
        split at h
        · cases h
          rw [hdirectory] at hnode
          cases hnode
        · cases h

theorem followSteps_append_stay {slash : List Step} (hslash : slash = [] ∨ slash = [.stay])
    (hdirectory : t.node? l = some .directory)
    (h : followSteps t true links loc (s ++ slash) = .ok l) :
    followSteps t false links loc (s ++ [.stay]) = .ok l := by
  induction links generalizing loc s with
  | zero => exact followWith_append_stay hslash hdirectory (fun hgo => by cases hgo) h
  | succ links ih => exact followWith_append_stay hslash hdirectory ih h

/-! ## Paths -/

variable {path directory : String}

/-- A path that the system takes. -/
structure Admissible (path : String) : Prop where
  noNul : path.toList.contains '\x00' = false
  nonempty : path.isEmpty = false
  length_lt : byteLength path.toList < pathLimit

theorem resolve_of_admissible (h : Admissible path) :
    resolve t cwd follow path =
      (followSteps t follow linkLimit (startOf cwd path) (Path.steps path)).mapError
        IoError.system := by
  simp only [resolve, h.noNul, h.nonempty, Nat.not_le.2 h.length_lt, Bool.false_eq_true, if_false]
  split
  · next hgo => rw [hgo]; rfl
  · next hgo => rw [hgo]; rfl

theorem resolve_iff :
    resolve t cwd follow path = .ok l ↔ Admissible path ∧
      followSteps t follow linkLimit (startOf cwd path) (Path.steps path) = .ok l := by
  constructor
  · intro h
    unfold resolve at h
    split_ifs at h with hnul hempty hlength
    refine ⟨⟨eq_false_of_ne_true hnul, eq_false_of_ne_true hempty, Nat.not_le.1 hlength⟩, ?_⟩
    split at h
    · next hgo =>
      cases h
      exact hgo
    · cases h
  · rintro ⟨hpath, h⟩
    rw [resolve_of_admissible hpath, h]
    rfl

/-- Following a path never fails for what lies at its end. -/
theorem followWith_ne_exists (hthrough : ∀ loc s, through loc s ≠ .error .exists_) :
    followWith t follow through loc s ≠ .error .exists_ := by
  induction s generalizing loc with
  | nil => nofun
  | cons step rest ih =>
    cases step with
    | stay =>
      rw [followWith]
      split
      · nofun
      · exact ih
    | up =>
      rw [followWith]
      split
      · nofun
      · exact ih
    | into name =>
      rw [followWith]
      split
      · nofun
      · split
        · nofun
        · simp only
          split
          · split
            · nofun
            · exact hthrough _ _
          · exact ih
          · split <;> nofun

theorem resolve_ne_exists : resolve t cwd follow path ≠ .error (.system .exists_) := by
  have hsteps : ∀ links loc s, followSteps t follow links loc s ≠ .error .exists_ := by
    intro links
    induction links with
    | zero => exact fun loc s => followWith_ne_exists fun _ _ => nofun
    | succ links ih => exact fun loc s => followWith_ne_exists ih
  unfold resolve
  split_ifs
  · nofun
  · nofun
  · nofun
  · split
    · nofun
    · next e he =>
      intro heq
      cases heq
      exact hsteps _ _ _ he

theorem resolve_keeps (hk : Keeps t t') (h : resolve t cwd false path = .ok l) :
    resolve t' cwd false path = .ok l := by
  obtain ⟨hpath, hgo⟩ := resolve_iff.1 h
  exact resolve_iff.2 ⟨hpath, followSteps_keeps hk hgo⟩

theorem resolve_true (hl : ∀ target, t.node? l ≠ some (.link target))
    (h : resolve t cwd false path = .ok l) : resolve t cwd true path = .ok l := by
  obtain ⟨hpath, hgo⟩ := resolve_iff.1 h
  exact resolve_iff.2 ⟨hpath, followSteps_true hl hgo⟩

theorem resolve_false (h : resolve t cwd true path = .ok l) :
    ∃ l', resolve t cwd false path = .ok l' := by
  obtain ⟨hpath, hgo⟩ := resolve_iff.1 h
  obtain ⟨l', hl'⟩ := followSteps_false hgo
  exact ⟨l', resolve_iff.2 ⟨hpath, hl'⟩⟩

theorem stat_of_resolve {node : Node} (hl : ∀ target, node ≠ .link target)
    (h : resolve t cwd false path = .ok l) (hnode : t.node? l = some node) :
    stat t cwd path = .ok (l, node) := by
  have hlink : ∀ target, t.node? l ≠ some (.link target) := by
    intro target hlink
    exact hl target (Option.some.inj (hnode.symm.trans hlink))
  rw [stat, resolve_true hlink h]
  simp only [hnode]

theorem stat_of_free (h : resolve t cwd false path = .ok l) (hnode : t.node? l = none) :
    stat t cwd path = .error (.system .noEntry) := by
  have hlink : ∀ target, t.node? l ≠ some (.link target) := by
    intro target hlink
    rw [hnode] at hlink
    cases hlink
  rw [stat, resolve_true hlink h]
  simp only [hnode]

/-! ## Paths that end in a name -/

/-- A name that stands for itself at the end of a path. -/
structure Plain (name : String) : Prop where
  noSlash : '/' ∉ name.toList
  notIdle : Path.isIdle name.toList = false
  notUp : name.toList ≠ ['.', '.']

/-- The steps to the directory that a name is joined to. -/
def leadIn (directory : String) : List Step :=
  match directory.toList.getLast? with
  | none => []
  | some '/' => (Path.pieces directory.toList.dropLast).map Path.stepOf
  | some _ => Path.steps directory

theorem Plain.stepOf (h : Plain name) : Path.stepOf name.toList = .into name := by
  rw [Path.stepOf, h.notIdle, if_neg Bool.false_ne_true, if_neg h.notUp, String.ofList_toList]

theorem Plain.isEmpty_eq_false (h : Plain name) : name.isEmpty = false := by
  refine String.isEmpty_eq_false_iff.2 ?_
  rintro rfl
  cases h.notIdle

theorem Plain.not_absolute (h : Plain name) : Path.isAbsolute name = false := by
  unfold Path.isAbsolute
  split
  · next hname => exact absurd (hname ▸ List.mem_cons_self) h.noSlash
  · rfl

theorem join_absolute (base : String) (h : Path.isAbsolute path = true) :
    Path.join base path = path := if_pos h

/-- A relative path is joined behind a slash, unless there is nothing to join it to. -/
theorem join_spec (directory : String) (h : Path.isAbsolute path = false) :
    (directory.toList = [] ∧ leadIn directory = [] ∧ Path.join directory path = path) ∨
      ∃ front, leadIn directory = (Path.pieces front).map Path.stepOf ∧
        (Path.join directory path).toList = front ++ '/' :: path.toList ∧
        (directory.toList = front ++ ['/'] ∨ front ≠ [] ∧ directory.toList = front) := by
  rw [Path.join, h, if_neg Bool.false_ne_true]
  rcases hlast : directory.toList.getLast? with _ | c
  · exact .inl ⟨List.getLast?_eq_none_iff.1 hlast, by simp only [leadIn, hlast], rfl⟩
  · right
    obtain ⟨front, hfront⟩ := List.getLast?_eq_some_iff.1 hlast
    by_cases hc : c = '/'
    · subst hc
      have hlead : leadIn directory = (Path.pieces front).map Path.stepOf := by
        simp only [leadIn, hlast]
        rw [hfront, List.dropLast_concat]
      refine ⟨front, hlead, ?_, .inl hfront⟩
      simp only [String.toList_append, hfront, List.append_assoc, List.singleton_append]
    · refine ⟨directory.toList, ?_, ?_, .inr ⟨?_, rfl⟩⟩
      · unfold leadIn
        split
        · next hnone => exact absurd (hlast.symm.trans hnone) (by simp)
        · next hslash => exact absurd (Option.some.inj (hlast.symm.trans hslash)) hc
        · rfl
      · split
        · next hnone => cases hnone
        · next hslash => exact absurd (Option.some.inj hslash) hc
        · simp
      · rw [hfront]
        simp

/-- A relative path is followed behind the directory that it is joined to. -/
theorem steps_join_relative (h : Path.isAbsolute path = false) :
    Path.steps (Path.join directory path) = leadIn directory ++ Path.steps path := by
  rcases join_spec directory h with ⟨-, hlead, hjoin⟩ | ⟨front, hlead, hjoin, -⟩
  · rw [hlead, hjoin, List.nil_append]
  · rw [hlead, Path.steps, hjoin, Path.pieces, cutAt_append, List.map_append, ← Path.pieces,
      ← Path.pieces, ← Path.steps]

theorem Plain.steps (h : Plain name) : Path.steps name = [.into name] := by
  have hname : Path.pieces name.toList = [name.toList] := cutAt_of_notMem h.noSlash
  rw [Path.steps, hname, List.map_singleton, h.stepOf]

theorem steps_join (h : Plain name) :
    Path.steps (Path.join directory name) = leadIn directory ++ [.into name] := by
  rw [steps_join_relative h.not_absolute, h.steps]

theorem isAbsolute_iff {s : String} : Path.isAbsolute s = true ↔ s.toList.head? = some '/' := by
  unfold Path.isAbsolute
  split
  · next hs => simp [hs]
  · next hs =>
    constructor
    · exact nofun
    · intro hhead
      obtain ⟨r, hr⟩ := List.head?_eq_some_iff.1 hhead
      exact absurd hr (hs r)

theorem isAbsolute_join_relative (directory : String) (h : Path.isAbsolute path = false) :
    Path.isAbsolute (Path.join directory path) = Path.isAbsolute directory := by
  rcases join_spec directory h with ⟨hempty, -, hjoin⟩ | ⟨front, -, hjoin, hfront⟩
  · rw [hjoin, h, Path.isAbsolute, hempty]
  · rw [Bool.eq_iff_iff, isAbsolute_iff, isAbsolute_iff, hjoin]
    rcases hfront with hslash | ⟨hne, hsame⟩
    · rw [hslash]
      cases front <;> simp
    · rw [hsame]
      obtain ⟨c, front, rfl⟩ := List.exists_cons_of_ne_nil hne
      rfl

theorem startOf_join (h : Path.isAbsolute path = false) :
    startOf cwd (Path.join directory path) = startOf cwd directory := by
  rw [startOf, startOf, isAbsolute_join_relative directory h]

/-- The directory that a name is joined to. -/
def reach (t : Tree) (cwd : Location) (directory : String) : Except Errno Location :=
  followSteps t false linkLimit (startOf cwd directory) (leadIn directory ++ [.stay])

theorem reach_keeps (hk : Keeps t t') (h : reach t cwd directory = .ok l) :
    reach t' cwd directory = .ok l := followSteps_keeps hk h

theorem steps_eq_leadIn (h : directory.isEmpty = false) :
    ∃ slash, (slash = [] ∨ slash = [.stay]) ∧ Path.steps directory = leadIn directory ++ slash := by
  unfold leadIn
  split
  · next hlast =>
    rw [List.getLast?_eq_none_iff, String.toList_eq_nil_iff] at hlast
    subst hlast
    cases h
  · next hlast =>
    obtain ⟨front, hfront⟩ := List.getLast?_eq_some_iff.1 hlast
    refine ⟨[.stay], .inr rfl, ?_⟩
    rw [Path.steps, hfront, List.dropLast_concat, Path.pieces, cutAt_append, List.map_append]
    rfl
  · exact ⟨[], .inl rfl, (List.append_nil _).symm⟩

/-- A directory that a path names is the one that names are joined to. -/
theorem reach_of_stat (h : stat t cwd directory = .ok (l, .directory)) :
    reach t cwd directory = .ok l := by
  unfold stat at h
  split at h
  · cases h
  · next hresolve =>
    split at h
    · next hnode =>
      cases h
      obtain ⟨hpath, hgo⟩ := resolve_iff.1 hresolve
      obtain ⟨slash, hslash, hsteps⟩ := steps_eq_leadIn hpath.nonempty
      rw [hsteps] at hgo
      exact followSteps_append_stay hslash hnode hgo
    · cases h

/-- A path that ends in a name leads to that name below the directory before it. -/
theorem resolve_join (h : Plain name) :
    resolve t cwd false (Path.join directory name) = .ok l ↔
      Admissible (Path.join directory name) ∧ byteLength name.toList ≤ nameLimit ∧
        ∃ d, reach t cwd directory = .ok d ∧ l = name :: d := by
  rw [resolve_iff, steps_join h, startOf_join h.not_absolute, followSteps_append_into]
  constructor
  · rintro ⟨hpath, d, hd, hlength, hl⟩
    exact ⟨hpath, hlength, d, hd, hl⟩
  · rintro ⟨hpath, hlength, d, hd, hl⟩
    exact ⟨hpath, d, hd, hlength, hl⟩

end PromptRunner.Files
