import Mathlib.Data.List.TakeWhile
import PromptRunner.Proofs.Files.Contents

/-!
# Directories that are there

Slashes at the end of a path ask for a directory and change nothing else. So a path that names a
directory names it without them as well, and something lies in its place; making the directory then
finds it there and makes nothing. And where names can be joined to a path, that path names a
directory.
-/

namespace PromptRunner.Files

open PromptRunner.Text

variable {t t' : Tree} {follow : Bool} {links : Nat} {cwd loc l : Location}
  {rest s : List Step} {path directory : String}
variable {through through' : Location → List Step → Except Errno Location}

/-! ## Ways with a slash at their end -/

/-- A way with a slash at its end leads where it leads without. -/
theorem followWith_drop_stay
    (hthrough : ∀ {loc s}, through loc (s ++ [.stay]) = .ok l → through' loc s = .ok l)
    (h : followWith t true through loc (s ++ [.stay]) = .ok l) :
    followWith t true through' loc s = .ok l := by
  induction s generalizing loc with
  | nil =>
    rw [List.nil_append] at h
    rw [followWith_stay (directory_of_followWith h)] at h
    exact h
  | cons step s ih =>
    rw [List.cons_append] at h
    have hd := directory_of_followWith h
    cases step with
    | stay =>
      rw [followWith_stay hd] at h ⊢
      exact ih h
    | up =>
      rw [followWith_up hd] at h ⊢
      exact ih h
    | into name =>
      have hlength := length_of_followWith h
      obtain ⟨-, -, hnext⟩ := (followWith_into_iff (by simp)).1 h
      rw [followWith_into hd hlength]
      rcases hnext with ⟨target, hnode, hgo⟩ | ⟨hnode, hgo⟩
      · rw [hnode]
        simp only [Bool.not_true, Bool.and_false, Bool.false_eq_true, if_false]
        rw [← List.append_assoc] at hgo
        exact hthrough hgo
      · rw [hnode]
        exact ih hgo

theorem followSteps_drop_stay (h : followSteps t true links loc (s ++ [.stay]) = .ok l) :
    followSteps t true links loc s = .ok l := by
  induction links generalizing loc s with
  | zero => exact followWith_drop_stay (fun hgo => by cases hgo) h
  | succ links ih => exact followWith_drop_stay ih h

theorem followSteps_drop_stays {n : Nat}
    (h : followSteps t true links loc (s ++ List.replicate n .stay) = .ok l) :
    followSteps t true links loc s = .ok l := by
  induction n with
  | zero => rwa [List.replicate_zero, List.append_nil] at h
  | succ n ih =>
    rw [List.replicate_succ', ← List.append_assoc] at h
    exact ih (followSteps_drop_stay h)

theorem directory_of_followWith_stay
    (hthrough : ∀ {loc s}, through loc (s ++ [.stay]) = .ok l → t.node? l = some .directory)
    (h : followWith t follow through loc (s ++ [.stay]) = .ok l) :
    t.node? l = some .directory := by
  induction s generalizing loc with
  | nil =>
    rw [List.nil_append] at h
    have hd := directory_of_followWith h
    rw [followWith_stay hd] at h
    cases h
    exact hd
  | cons step s ih =>
    rw [List.cons_append] at h
    have hd := directory_of_followWith h
    cases step with
    | stay =>
      rw [followWith_stay hd] at h
      exact ih h
    | up =>
      rw [followWith_up hd] at h
      exact ih h
    | into name =>
      obtain ⟨-, -, ⟨target, -, hgo⟩ | ⟨-, hgo⟩⟩ := (followWith_into_iff (by simp)).1 h
      · rw [← List.append_assoc] at hgo
        exact hthrough hgo
      · exact ih hgo

theorem directory_of_followSteps_stay
    (h : followSteps t follow links loc (s ++ [.stay]) = .ok l) :
    t.node? l = some .directory := by
  induction links generalizing loc s with
  | zero => exact directory_of_followWith_stay (fun hgo => by cases hgo) h
  | succ links ih => exact directory_of_followWith_stay ih h

/-! ## Paths with slashes at their end -/

/-- A path is the path without the slashes at its end, and slashes. -/
theorem exists_withoutSlashes (h : path.isEmpty = false) :
    (Path.withoutSlashes path).isEmpty = false ∧
      ∃ n, path.toList = (Path.withoutSlashes path).toList ++ List.replicate n '/' := by
  have hslashes : path.toList.reverse.takeWhile (· = '/') =
      List.replicate (path.toList.reverse.takeWhile (· = '/')).length '/' := by
    refine List.eq_replicate_iff.2 ⟨rfl, fun c hc => ?_⟩
    simpa using List.mem_takeWhile_imp hc
  have hsplit := List.takeWhile_append_dropWhile (p := (· = '/')) (l := path.toList.reverse)
  have hsplit := congrArg List.reverse hsplit
  rw [List.reverse_append, List.reverse_reverse, hslashes, List.reverse_replicate] at hsplit
  unfold Path.withoutSlashes
  split
  · next hnil =>
    rw [hnil, List.reverse_nil, List.nil_append] at hsplit
    rw [h, if_neg Bool.false_ne_true]
    refine ⟨rfl, (path.toList.reverse.takeWhile (· = '/')).length - 1, ?_⟩
    rw [show ("/" : String).toList = ['/'] from rfl, List.singleton_append, ← List.replicate_succ]
    have hpos : (path.toList.reverse.takeWhile (· = '/')).length ≠ 0 := by
      intro hzero
      rw [hzero, List.replicate_zero] at hsplit
      rw [String.isEmpty_iff.2 (String.toList_eq_nil_iff.1 hsplit.symm)] at h
      cases h
    rw [Nat.sub_add_cancel (Nat.pos_of_ne_zero hpos), hsplit]
  · next hrest =>
    refine ⟨?_, (path.toList.reverse.takeWhile (· = '/')).length, ?_⟩
    · rw [Bool.eq_false_iff]
      intro hempty
      rw [String.isEmpty_iff, ← String.toList_eq_nil_iff, String.toList_ofList] at hempty
      exact hrest (by simpa using hempty)
    · rw [String.toList_ofList]
      exact hsplit.symm

theorem steps_append_slashes {front : List Char} {n : Nat} :
    (Path.pieces (front ++ List.replicate n '/')).map Path.stepOf =
      (Path.pieces front).map Path.stepOf ++ List.replicate n .stay := by
  induction n with
  | zero => simp
  | succ n ih =>
    rw [List.replicate_succ', ← List.append_assoc, Path.pieces, cutAt_append, List.map_append,
      ← Path.pieces, ih, List.replicate_succ', List.append_assoc]
    rfl

theorem byteLength_append (a b : List Char) :
    byteLength (a ++ b) = byteLength a + byteLength b := by
  simp only [← length_encode, encode, List.flatMap_append, List.length_append]

theorem Admissible.of_append {front : String} {tail : List Char} (h : Admissible path)
    (hpath : path.toList = front.toList ++ tail) (hfront : front.isEmpty = false) :
    Admissible front := by
  refine ⟨?_, hfront, ?_⟩
  · have hnul := h.noNul
    rw [List.contains_eq_mem, decide_eq_false_iff_not] at hnul ⊢
    rw [hpath, List.mem_append, not_or] at hnul
    exact hnul.1
  · have hlength := h.length_lt
    rw [hpath, byteLength_append] at hlength
    omega

theorem steps_withoutSlashes (h : path.isEmpty = false) :
    ∃ n, Path.steps path = Path.steps (Path.withoutSlashes path) ++ List.replicate n .stay := by
  obtain ⟨-, n, hn⟩ := exists_withoutSlashes h
  exact ⟨n, by rw [Path.steps, hn, steps_append_slashes, ← Path.steps]⟩

theorem startOf_withoutSlashes (h : path.isEmpty = false) :
    startOf cwd (Path.withoutSlashes path) = startOf cwd path := by
  obtain ⟨hfront, n, hn⟩ := exists_withoutSlashes h
  have hhead : (Path.withoutSlashes path).toList.head? = path.toList.head? := by
    have hne : (Path.withoutSlashes path).toList ≠ [] := by
      intro hnil
      rw [String.isEmpty_iff.2 (String.toList_eq_nil_iff.1 hnil)] at hfront
      cases hfront
    obtain ⟨c, cs, hcs⟩ := List.exists_cons_of_ne_nil hne
    rw [hn, hcs, List.cons_append, List.head?_cons, List.head?_cons]
  have habsolute : Path.isAbsolute (Path.withoutSlashes path) = Path.isAbsolute path := by
    rw [Bool.eq_iff_iff, isAbsolute_iff, isAbsolute_iff, hhead]
  rw [startOf, startOf, habsolute]

/-- A path that can be followed to its end leads there without the slashes at its end. -/
theorem resolve_withoutSlashes (h : resolve t cwd true path = .ok l) :
    resolve t cwd true (Path.withoutSlashes path) = .ok l := by
  obtain ⟨hpath, hgo⟩ := resolve_iff.1 h
  obtain ⟨hfront, n, hn⟩ := exists_withoutSlashes hpath.nonempty
  obtain ⟨m, hsteps⟩ := steps_withoutSlashes hpath.nonempty
  refine resolve_iff.2 ⟨hpath.of_append hn hfront, ?_⟩
  rw [startOf_withoutSlashes hpath.nonempty]
  rw [hsteps] at hgo
  exact followSteps_drop_stays hgo

/-! ## Paths without a parent

A path has no parent only if it names nothing on its way, and then it leads to the root. -/

/-- What is dropped in front of the first part that is kept is idle. -/
theorem exists_dropIdle (absolute : Bool) (pieces : List (List Char)) :
    ∃ idle, pieces = idle ++ Path.dropIdle absolute pieces ∧
      ∀ piece ∈ idle, Path.isIdle piece = true := by
  induction pieces with
  | nil => exact ⟨[], rfl, nofun⟩
  | cons piece before ih =>
    obtain ⟨idle, hbefore, hidle⟩ := ih
    have hkept : ∀ dropped, Path.isIdle piece = true → dropped = Path.dropIdle absolute before →
        ∃ idle, piece :: before = idle ++ dropped ∧ ∀ piece ∈ idle, Path.isIdle piece = true := by
      rintro dropped hpiece rfl
      exact ⟨piece :: idle, congrArg (piece :: ·) hbefore, List.forall_mem_cons.2 ⟨hpiece, hidle⟩⟩
    rw [Path.dropIdle]
    split
    · next hempty => exact hkept _ (by simp [Path.isIdle, hempty]) rfl
    · split
      · next hdot =>
        rw [Bool.and_eq_true, decide_eq_true_eq] at hdot
        exact hkept _ (by simp [Path.isIdle, hdot.1]) rfl
      · exact ⟨[], rfl, nofun⟩

theorem isIdle_of_dropIdle {absolute : Bool} {pieces : List (List Char)}
    (h : Path.dropIdle absolute pieces = []) : ∀ piece ∈ pieces, Path.isIdle piece = true := by
  obtain ⟨idle, hpieces, hidle⟩ := exists_dropIdle absolute pieces
  rw [h, List.append_nil] at hpieces
  rwa [hpieces]

theorem dropIdle_of_not_idle {absolute : Bool} {piece : List Char} {before : List (List Char)}
    (h : Path.isIdle piece = false) : Path.dropIdle absolute (piece :: before) = piece :: before := by
  have hidle : piece ≠ [] ∧ piece ≠ ['.'] := by simpa [Path.isIdle] using h
  rw [Path.dropIdle, if_neg hidle.1, decide_eq_false hidle.2, Bool.false_and,
    if_neg Bool.false_ne_true]

theorem dropIdle_ne_nil {piece : List Char} (h : piece ≠ []) (pieces : List (List Char)) :
    Path.dropIdle false (pieces ++ [piece]) ≠ [] := by
  induction pieces with
  | nil => simp [Path.dropIdle, h]
  | cons next pieces ih =>
    rw [List.cons_append, Path.dropIdle]
    split
    · exact ih
    · split
      · exact ih
      · exact List.cons_ne_nil _ _

theorem followWith_of_stays (hs : ∀ step ∈ s, step = .stay)
    (h : followWith t follow through loc s = .ok l) : l = loc := by
  induction s with
  | nil => exact (Except.ok.inj h).symm
  | cons step rest ih =>
    obtain ⟨rfl, hrest⟩ := List.forall_mem_cons.1 hs
    rw [followWith_stay (directory_of_followWith h)] at h
    exact ih hrest h

theorem dropIdle_of_no_parent (h : Path.parent? path = none) :
    Path.dropIdle (Path.isAbsolute path) (Path.pieces (if Path.isAbsolute path then
      path.toList.drop 1 else path.toList)).reverse = [] := by
  simp only [Path.parent?] at h
  split at h
  · next hnil => exact hnil
  · cases h

theorem exists_parent (h : resolve t cwd follow (Path.withoutSlashes path) = .ok l) (hl : l ≠ []) :
    ∃ parent, Path.parent? path = some parent := by
  obtain ⟨hpath, hgo⟩ := resolve_iff.1 h
  have hnonempty : path.isEmpty = false := by
    refine String.isEmpty_eq_false_iff.2 ?_
    rintro rfl
    cases hpath.nonempty
  cases hparent : Path.parent? path with
  | some parent => exact ⟨parent, rfl⟩
  | none =>
    have hidle := dropIdle_of_no_parent hparent
    obtain ⟨c, cs, hcs⟩ : ∃ c cs, path.toList = c :: cs := by
      refine List.exists_cons_of_ne_nil fun hnil => ?_
      rw [String.isEmpty_iff.2 (String.toList_eq_nil_iff.1 hnil)] at hnonempty
      cases hnonempty
    by_cases hc : c = '/'
    -- from the root on every part is idle, and the way stays where it begins
    · subst hc
      have habsolute : Path.isAbsolute path = true := by rw [isAbsolute_iff, hcs, List.head?_cons]
      rw [habsolute, if_pos rfl, hcs, List.drop_one, List.tail_cons] at hidle
      have hstays : ∀ step ∈ Path.steps path, step = .stay := by
        intro step hstep
        rw [Path.steps, hcs, Path.pieces, cutAt, if_pos rfl, ← Path.pieces] at hstep
        obtain ⟨piece, hpiece, rfl⟩ := List.mem_map.1 hstep
        rcases List.mem_cons.1 hpiece with rfl | hrest
        · rfl
        · rw [Path.stepOf, isIdle_of_dropIdle hidle piece (List.mem_reverse.2 hrest), if_pos rfl]
      obtain ⟨n, hsteps⟩ := steps_withoutSlashes hnonempty
      rw [hsteps] at hstays
      rw [startOf_withoutSlashes hnonempty, startOf, habsolute, if_pos rfl] at hgo
      have hend := followWith_of_stays (fun step hstep =>
        hstays step (List.mem_append_left _ hstep)) hgo
      exact absurd hend hl
    -- the first part of a relative path is not empty, and no more than that is dropped
    · have habsolute : Path.isAbsolute path = false := by
        rw [Bool.eq_false_iff, Ne, isAbsolute_iff, hcs, List.head?_cons, Option.some.injEq]
        exact hc
      obtain ⟨piece, pieces, hpieces⟩ : ∃ piece pieces,
          Path.pieces path.toList = (c :: piece) :: pieces := by
        rw [hcs, Path.pieces, cutAt, if_neg hc]
        split
        · exact ⟨[], [], rfl⟩
        · exact ⟨_, _, rfl⟩
      rw [habsolute, if_neg Bool.false_ne_true, hpieces, List.reverse_cons] at hidle
      exact absurd hidle (dropIdle_ne_nil (List.cons_ne_nil c piece) _)

/-! ## Making what is there -/

theorem createDirectory_of_free (h : resolve t cwd false (Path.withoutSlashes path) = .ok l)
    (hfree : t.node? l = none) : createDirectory t cwd path = .ok (t.put l .directory) := by
  simp only [createDirectory, h, hfree]

theorem createDirectory_of_taken (h : resolve t cwd false (Path.withoutSlashes path) = .ok l)
    (htaken : t.node? l ≠ none) : createDirectory t cwd path = .error (.system .exists_) := by
  obtain ⟨node, hnode⟩ := Option.ne_none_iff_exists'.1 htaken
  simp only [createDirectory, h, hnode]

theorem createDirectory_of_stat (h : stat t cwd path = .ok (l, .directory)) :
    createDirectory t cwd path = .error (.system .exists_) := by
  obtain ⟨hl, hnode⟩ := stat_iff.1 h
  have hgo := resolve_withoutSlashes hl
  obtain ⟨place, hplace⟩ := resolve_false hgo
  refine createDirectory_of_taken hplace fun hfree => ?_
  rw [resolve_true (by rw [hfree]; nofun) hplace] at hgo
  cases hgo
  rw [hfree] at hnode
  cases hnode

theorem isDirectory_of_stat (h : stat t cwd path = .ok (l, .directory)) :
    isDirectory t cwd path = true := isDirectory_iff.2 ⟨l, h⟩

theorem createDirectories_of_stat (h : stat t cwd path = .ok (l, .directory)) :
    createDirectories t cwd path = .ok t := by
  have hcreate := createDirectory_of_stat h
  rw [createDirectories, createUpwards]
  split
  · rfl
  · split
    · rfl
    · simp only [createMissing, hcreate, isDirectory_of_stat h, if_true]
      rw [if_neg (by decide)]

theorem createDirectories_of_isDirectory (h : isDirectory t cwd path = true) :
    createDirectories t cwd path = .ok t := by
  obtain ⟨l, hstat⟩ := isDirectory_iff.1 h
  exact createDirectories_of_stat hstat

/-- What comes of making a directory whose place is known and is not the root. -/
theorem createDirectories_cases (h : resolve t cwd false (Path.withoutSlashes path) = .ok l)
    (hl : l ≠ []) :
    (t.node? l = none ∧ createDirectories t cwd path = .ok (t.put l .directory)) ∨
    (t.node? l ≠ none ∧ isDirectory t cwd path = true ∧ createDirectories t cwd path = .ok t) ∨
    (t.node? l ≠ none ∧ isDirectory t cwd path = false ∧
      createDirectories t cwd path = .error (.system .exists_, t)) := by
  obtain ⟨parent, hparent⟩ := exists_parent h hl
  have hnonempty : path.isEmpty = false := by
    refine String.isEmpty_eq_false_iff.2 ?_
    rintro rfl
    cases hparent
  have hmissing : createDirectories t cwd path =
      createMissing (createUpwards path.toList.length · cwd parent) t cwd path := by
    rw [createDirectories, createUpwards, hnonempty, if_neg Bool.false_ne_true, hparent]
  rw [hmissing, createMissing]
  by_cases hfree : t.node? l = none
  · rw [createDirectory_of_free h hfree]
    exact .inl ⟨hfree, rfl⟩
  · rw [createDirectory_of_taken h hfree]
    simp only [if_neg (show IoError.system .exists_ ≠ .system .noEntry by decide)]
    cases hdirectory : isDirectory t cwd path with
    | true => exact .inr (.inl ⟨hfree, rfl, rfl⟩)
    | false => exact .inr (.inr ⟨hfree, rfl, rfl⟩)

/-! ## Where names can be joined -/

theorem stat_of_reach (hpath : Admissible directory) (h : reach t cwd directory = .ok l) :
    stat t cwd directory = .ok (l, .directory) := by
  have hnode := directory_of_followSteps_stay h
  have hgo := followSteps_true (by rw [hnode]; nofun) h
  obtain ⟨slash, hslash, hsteps⟩ := steps_eq_leadIn hpath.nonempty
  refine stat_iff.2 ⟨resolve_iff.2 ⟨hpath, ?_⟩, hnode⟩
  rw [hsteps]
  rcases hslash with rfl | rfl
  · rw [List.append_nil]
    exact followSteps_drop_stay hgo
  · exact hgo

theorem Admissible.of_join {name : String} (hname : Plain name)
    (h : Admissible (Path.join directory name)) (hdirectory : directory.isEmpty = false) :
    Admissible directory := by
  have hjoin : ∃ tail, (Path.join directory name).toList = directory.toList ++ tail := by
    rw [Path.join, hname.not_absolute, if_neg Bool.false_ne_true]
    split
    · next hnone => exact ⟨_, by rw [List.getLast?_eq_none_iff.1 hnone, List.nil_append]⟩
    · exact ⟨_, String.toList_append⟩
    · exact ⟨_, by rw [String.append_assoc, String.toList_append]⟩
  obtain ⟨tail, htail⟩ := hjoin
  exact h.of_append htail hdirectory

/-- Where a file in a directory can be reached, the directory is there, and making it changes
nothing. -/
theorem createDirectories_of_resolve {name : String} (hname : Plain name)
    (h : resolve t cwd false (Path.join directory name) = .ok l) :
    createDirectories t cwd directory = .ok t := by
  obtain ⟨hpath, -, d, hd, -⟩ := (resolve_join hname).1 h
  cases hempty : directory.isEmpty with
  | true => simp [createDirectories, createUpwards, hempty]
  | false =>
    refine createDirectories_of_stat (stat_of_reach (.of_join hname hpath hempty) hd)

end PromptRunner.Files
