import PromptRunner.Proofs.Files.Changing

/-!
# What is written is read

A tree may have one file more than another and be the same otherwise. Such a file stands in no way:
every path that led to a directory still leads there, and every path that leads to the new file
reads what the file holds. An absolute path does this from every directory, so that it still names
the file after the current directory has changed.
-/

namespace PromptRunner.Files

open PromptRunner.Text

variable {t t' : Tree} {follow : Bool} {links : Nat} {cwd loc l place : Location}
  {rest s : List Step} {path directory : String} {now : Int} {content : Bytes} {f : RegularFile}
variable {through through' : Location → List Step → Except Errno Location}

/-! ## Ways that are followed to their end -/

/-- A way leads to the same place in a tree with the same directories and links, unless a new link
lies there. -/
theorem followWith_true_keeps (hk : Keeps t t') (hl : ∀ target, t'.node? l ≠ some (.link target))
    (hthrough : ∀ {loc s}, through loc s = .ok l → through' loc s = .ok l)
    (h : followWith t true through loc s = .ok l) : followWith t' true through' loc s = .ok l := by
  induction s generalizing loc with
  | nil => exact h
  | cons step rest ih =>
    have hd := directory_of_followWith h
    have hd' := hk.directory hd
    cases step with
    | stay =>
      rw [followWith_stay hd] at h
      rw [followWith_stay hd']
      exact ih h
    | up =>
      rw [followWith_up hd] at h
      rw [followWith_up hd']
      exact ih h
    | into name =>
      have hlength := length_of_followWith h
      by_cases hrest : rest = []
      · subst hrest
        rw [followWith_into hd hlength] at h
        rw [followWith_into hd' hlength]
        split at h
        · next target hnode =>
          rw [hk.link hnode]
          exact hthrough h
        -- nothing is followed any further: the way ends at the name
        all_goals
          cases h
          split
          · next target hnode => exact absurd hnode (hl target)
          · rfl
          · rfl
      · obtain ⟨-, -, hnext⟩ := (followWith_into_iff hrest).1 h
        refine (followWith_into_iff hrest).2 ⟨hd', hlength, ?_⟩
        rcases hnext with ⟨target, hnode, hgo⟩ | ⟨hnode, hgo⟩
        · exact .inl ⟨target, hk.link hnode, hthrough hgo⟩
        · exact .inr ⟨hk.directory hnode, ih hgo⟩

theorem followSteps_true_keeps (hk : Keeps t t') (hl : ∀ target, t'.node? l ≠ some (.link target))
    (h : followSteps t true links loc s = .ok l) : followSteps t' true links loc s = .ok l := by
  induction links generalizing loc s with
  | zero => exact followWith_true_keeps hk hl (fun hgo => by cases hgo) h
  | succ links ih => exact followWith_true_keeps hk hl ih h

theorem resolve_true_keeps (hk : Keeps t t') (hl : ∀ target, t'.node? l ≠ some (.link target))
    (h : resolve t cwd true path = .ok l) : resolve t' cwd true path = .ok l := by
  obtain ⟨hpath, hgo⟩ := resolve_iff.1 h
  exact resolve_iff.2 ⟨hpath, followSteps_true_keeps hk hl hgo⟩

theorem stat_iff {node : Node} :
    stat t cwd path = .ok (l, node) ↔
      resolve t cwd true path = .ok l ∧ t.node? l = some node := by
  unfold stat
  constructor
  · intro h
    split at h
    · cases h
    · next hl =>
      split at h
      · next hnode =>
        cases h
        exact ⟨hl, hnode⟩
      · cases h
  · rintro ⟨hl, hnode⟩
    simp only [hl, hnode]

theorem stat_directory_keeps (hk : Keeps t t') (h : stat t cwd path = .ok (l, .directory)) :
    stat t' cwd path = .ok (l, .directory) := by
  obtain ⟨hl, hnode⟩ := stat_iff.1 h
  have hnode' := hk.directory hnode
  refine stat_iff.2 ⟨resolve_true_keeps hk (fun target hlink => ?_) hl, hnode'⟩
  rw [hnode'] at hlink
  cases hlink

theorem isDirectory_iff :
    isDirectory t cwd path = true ↔ ∃ l, stat t cwd path = .ok (l, .directory) := by
  unfold isDirectory
  split
  · next l hstat => exact ⟨fun _ => ⟨l, hstat⟩, fun _ => rfl⟩
  · next hnone => exact ⟨nofun, fun ⟨l, hstat⟩ => absurd hstat (hnone l)⟩

theorem changeDirectory_iff :
    changeDirectory t cwd path = .ok l ↔ stat t cwd path = .ok (l, .directory) := by
  unfold changeDirectory
  constructor
  · intro h
    split at h
    · cases h
    · next hstat =>
      cases h
      exact hstat
    · cases h
  · intro h
    simp only [h]

/-! ## Absolute paths -/

theorem isAbsolute_path (loc : Location) : Path.isAbsolute loc.path = true := by
  rw [isAbsolute_iff, Location.path]
  split
  · rfl
  · next hroot =>
    obtain ⟨name, names, hnames⟩ := List.exists_cons_of_ne_nil
      (show loc.reverse ≠ [] by simpa using hroot)
    rw [hnames, List.map_cons, String.join_cons]
    simp

theorem isAbsolute_append {front : String} (h : Path.isAbsolute front = true) (path : String) :
    Path.isAbsolute (front ++ path) = true := by
  rw [isAbsolute_iff] at h ⊢
  rw [String.toList_append, List.head?_append, h]
  rfl

theorem isAbsolute_join {base : String} (h : Path.isAbsolute base = true) (path : String) :
    Path.isAbsolute (Path.join base path) = true := by
  unfold Path.join
  split
  · assumption
  · split
    · next hnone =>
      rw [isAbsolute_iff, List.getLast?_eq_none_iff.1 hnone] at h
      cases h
    · exact isAbsolute_append h path
    · exact isAbsolute_append (isAbsolute_append h "/") path

theorem resolve_of_absolute (h : Path.isAbsolute path = true) (cwd cwd' : Location) :
    resolve t cwd follow path = resolve t cwd' follow path := by
  simp only [resolve, startOf, h, if_true]

/-! ## One more file -/

/-- A tree with a file in a place that is free in another, and the same otherwise. -/
structure Gains (t t' : Tree) (place : Location) (f : RegularFile) : Prop where
  free : t.node? place = none
  file : t'.node? place = some (.file f)
  same : ∀ other, other ≠ place → t'.node? other = t.node? other

namespace Gains

theorem put (h : t.node? place = none) (f : RegularFile) :
    Gains t (t.put place (.file f)) place f :=
  ⟨h, t.node?_put_self _ (ne_root_of_free h), fun _ hne => t.node?_put_ne _ hne⟩

theorem put_again (h : Gains t t' place f) (g : RegularFile) :
    Gains t (t'.put place (.file g)) place g := by
  refine ⟨h.free, t'.node?_put_self _ (ne_root_of_free h.free), fun other hne => ?_⟩
  rw [t'.node?_put_ne _ hne, h.same other hne]

theorem keeps (h : Gains t t' place f) : Keeps t t' := .of_free place h.same h.free

theorem keeps_back (h : Gains t t' place f) : Keeps t' t :=
  .of_file place (fun other hne => (h.same other hne).symm) h.file

theorem stat_directory_iff (h : Gains t t' place f) :
    stat t' cwd path = .ok (l, .directory) ↔ stat t cwd path = .ok (l, .directory) :=
  ⟨stat_directory_keeps h.keeps_back, stat_directory_keeps h.keeps⟩

end Gains

theorem readBytes_of_file (h : resolve t cwd false path = .ok loc)
    (hfile : t.node? loc = some (.file f)) : readBytes t cwd path = .ok f.content := by
  rw [readBytes, stat_of_resolve (by nofun) h hfile]

theorem withoutSlashes_of_no_slash (h : Path.endsInSlash path = false) :
    Path.withoutSlashes path = path := by
  cases hlast : path.toList.getLast? with
  | none =>
    have hempty : path = "" := String.toList_eq_nil_iff.1 (List.getLast?_eq_none_iff.1 hlast)
    rw [hempty]
    rfl
  | some c =>
    refine (no_slash_after hlast ?_).1
    rintro rfl
    simp [Path.endsInSlash, hlast] at h

/-- Writing puts a file where the path leads, in a free place or in place of a file. -/
theorem writeFile_spec (h : writeFile t cwd now path content = .ok t') :
    ∃ loc f, resolve t cwd true path = .ok loc ∧ f.content = content ∧
      t' = t.put loc (.file f) ∧
      (t.node? loc = none ∨ ∃ g, t.node? loc = some (.file g)) := by
  unfold writeFile at h
  split at h
  · cases h
  · next loc hloc =>
    split at h
    · cases h
    · next hslash =>
      rw [withoutSlashes_of_no_slash (eq_false_of_ne_true hslash)] at hloc
      split at h
      · next f hnode =>
        cases h
        exact ⟨loc, _, hloc, rfl, rfl, .inr ⟨f, hnode⟩⟩
      · next hnode =>
        cases h
        exact ⟨loc, _, hloc, rfl, rfl, .inl hnode⟩
      · cases h

theorem keeps_put_file (hnode : t.node? loc = none ∨ ∃ g, t.node? loc = some (.file g))
    (f : RegularFile) : Keeps t (t.put loc (.file f)) := by
  rcases hnode with hfree | ⟨g, hfile⟩
  · exact .of_free loc (fun _ hne => t.node?_put_ne _ hne) hfree
  · exact .of_file loc (fun _ hne => t.node?_put_ne _ hne) hfile

theorem readBytes_iff :
    readBytes t cwd path = .ok content ↔
      ∃ loc f, resolve t cwd true path = .ok loc ∧ t.node? loc = some (.file f) ∧
        f.content = content := by
  unfold readBytes
  constructor
  · intro h
    split at h
    · cases h
    · next loc f hstat =>
      cases h
      obtain ⟨hloc, hnode⟩ := stat_iff.1 hstat
      exact ⟨loc, f, hloc, hnode, rfl⟩
    · cases h
  · rintro ⟨loc, f, hloc, hnode, rfl⟩
    rw [stat_iff.2 ⟨hloc, hnode⟩]

theorem readBytes_of_writeFile (h : writeFile t cwd now path content = .ok t') :
    readBytes t' cwd path = .ok content := by
  obtain ⟨loc, f, hloc, hcontent, rfl, hnode⟩ := writeFile_spec h
  have hroot : loc ≠ [] := by
    rintro rfl
    rcases hnode with hfree | ⟨g, hfile⟩
    · cases hfree
    · cases hfile
  have hfile := t.node?_put_self (.file f) hroot
  refine readBytes_iff.2
    ⟨loc, f, resolve_true_keeps (keeps_put_file hnode f) ?_ hloc, hfile, hcontent⟩
  rw [hfile]
  nofun

/-- A file that comes to a free place leaves every other file where it is. -/
theorem Gains.stat_file_iff {g : RegularFile} (h : Gains t t' place f) (hne : l ≠ place) :
    stat t' cwd path = .ok (l, .file g) ↔ stat t cwd path = .ok (l, .file g) := by
  have hkept : ∀ {t t' : Tree}, Keeps t t' → t'.node? l = t.node? l →
      stat t cwd path = .ok (l, .file g) → stat t' cwd path = .ok (l, .file g) := by
    intro t t' hk hsame hstat
    obtain ⟨hl, hfile⟩ := stat_iff.1 hstat
    rw [← hsame] at hfile
    refine stat_iff.2 ⟨resolve_true_keeps hk (fun target hlink => ?_) hl, hfile⟩
    rw [hfile] at hlink
    cases hlink
  exact ⟨hkept h.keeps_back (h.same l hne).symm, hkept h.keeps (h.same l hne)⟩

/-- A file that comes to a free place leaves every other file as it can be read. -/
theorem Gains.readBytes (h : Gains t t' place f) (hread : readBytes t cwd path = .ok content) :
    readBytes t' cwd path = .ok content := by
  obtain ⟨loc, g, hloc, hfile, hcontent⟩ := readBytes_iff.1 hread
  have hne : loc ≠ place := by
    rintro rfl
    rw [h.free] at hfile
    cases hfile
  obtain ⟨hloc', hfile'⟩ := stat_iff.1 ((h.stat_file_iff hne).2 (stat_iff.2 ⟨hloc, hfile⟩))
  exact readBytes_iff.2 ⟨loc, g, hloc', hfile', hcontent⟩

theorem path_of_createFresh {base temporary : String} {name : TemporaryName}
    {middles : List String} (h : createFresh t cwd now base name middles = .ok (temporary, t')) :
    ∃ middle, temporary = Path.join base (name.start ++ middle ++ name.finish) := by
  induction middles with
  | nil => cases h
  | cons middle others ih =>
    simp only [createFresh] at h
    split at h
    · cases h
      exact ⟨middle, rfl⟩
    · split at h
      · exact ih h
      · cases h

/-- A temporary file has an absolute path that leads to it from everywhere, and it is the only
thing that is new. -/
theorem createTemporary_spec {temporary : String} {name : TemporaryName} {middles : List String}
    (h : createTemporary t cwd now directory name middles = .ok (temporary, t')) :
    (∃ front, temporary = front ++ name.finish) ∧
      ∃ place, (∀ cwd, resolve t cwd false temporary = .ok place) ∧
        Gains t t' place ⟨[], now, false⟩ := by
  obtain ⟨hend, place, hplace, hfree, rfl⟩ := createFresh_spec h
  obtain ⟨middle, hpath⟩ := path_of_createFresh h
  have habsolute : Path.isAbsolute temporary = true := by
    rw [hpath]
    exact isAbsolute_join (isAbsolute_join (isAbsolute_path cwd) directory) _
  refine ⟨hend, place, fun cwd' => ?_, .put hfree _⟩
  rw [resolve_of_absolute habsolute cwd' cwd, hplace]

end PromptRunner.Files
