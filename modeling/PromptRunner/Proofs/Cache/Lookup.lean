import PromptRunner.Cache.Store
import PromptRunner.Proofs.Files.Changing

/-!
# Looking up an answer

What looking up finds is a matter of one file: the one that the path names, if it names one. The
file says when it was written and what it holds, and the rest is arithmetic and reading. So two
trees in which a path names the same file give the same answer, however else they differ.
-/

namespace PromptRunner.Cache

open PromptRunner.Files PromptRunner.Text

variable {t t' : Tree} {cwd loc : Location} {path : String} {now : Int}

/-- The file that lies somewhere, if a file does. -/
def fileOf : Option Node → Option RegularFile
  | some (.file f) => some f
  | _ => none

/-- The file that a path names, links followed. -/
def fileAt (t : Tree) (cwd : Location) (path : String) : Option RegularFile :=
  match stat t cwd path with
  | .ok (_, .file f) => some f
  | _ => none

/-- The answer that some bytes hold. -/
def answerIn (content : Bytes) : Option String :=
  match stringOf? content with
  | none => none
  | some text =>
    match Entry.parse text with
    | .ok e => some e.content
    | .error _ => none

/-- The answer in a file, if the file is young enough. -/
def answerOf (now limit : Int) (f : RegularFile) : Option String :=
  if limit < 0 ∨ isExpired now limit f.modified = true then none else answerIn f.content

theorem fileAt_eq_some {f : RegularFile} (h : fileAt t cwd path = some f) :
    ∃ loc, stat t cwd path = .ok (loc, .file f) := by
  unfold fileAt at h
  split at h
  · next loc g hstat =>
    cases h
    exact ⟨loc, hstat⟩
  · cases h

theorem readText_eq {f : RegularFile} (h : fileAt t cwd path = some f) :
    Files.readText t cwd path = match stringOf? f.content with
      | some text => .ok text
      | none => .error .notText := by
  obtain ⟨loc, hstat⟩ := fileAt_eq_some h
  cases htext : stringOf? f.content with
  | none => simp only [Files.readText, readBytes, hstat, htext]
  | some text => simp only [Files.readText, readBytes, hstat, htext]

theorem readAnswer_eq {f : RegularFile} (h : fileAt t cwd path = some f) :
    readAnswer t cwd path = answerIn f.content := by
  rw [readAnswer, readText_eq h, answerIn]
  cases stringOf? f.content <;> rfl

theorem lookup_of_file {limit : Int} {f : RegularFile} (h : fileAt t cwd path = some f) :
    lookup t cwd now limit path =
      (answerOf now limit f,
        if 0 ≤ limit ∧ isExpired now limit f.modified = true then discard t cwd path else t) := by
  obtain ⟨loc, hstat⟩ := fileAt_eq_some h
  rw [lookup, glance, answerOf]
  by_cases hlimit : limit < 0
  · simp [hlimit, Int.not_le.2 hlimit]
  · cases hexpired : isExpired now limit f.modified with
    | true => simp [hlimit, Int.not_lt.1 hlimit, hstat, hexpired]
    | false => simp [hlimit, hstat, hexpired, readAnswer_eq h]

theorem lookup_of_no_file {limit : Int} (h : fileAt t cwd path = none) :
    lookup t cwd now limit path = (none, t) := by
  have hglance : glance t cwd now limit path = .missing := by
    rw [glance]
    split
    · rfl
    · split
      · next loc f hstat =>
        rw [fileAt, hstat] at h
        cases h
      · rfl
  rw [lookup, hglance]

/-- What looking up finds depends on the file at the path alone. -/
theorem lookup_fst (now limit : Int) :
    (lookup t cwd now limit path).1 = (fileAt t cwd path).bind (answerOf now limit) := by
  cases h : fileAt t cwd path with
  | none => rw [lookup_of_no_file h, Option.bind_none]
  | some f => rw [lookup_of_file h, Option.bind_some]

/-- Without a limit of age every file counts, and looking removes none. -/
theorem lookup_unlimited (t : Tree) (cwd : Location) (now : Int) (path : String) :
    lookup t cwd now 0 path = ((fileAt t cwd path).bind fun f => answerIn f.content, t) := by
  have hfresh : ∀ modified, isExpired now 0 modified = false := by
    intro modified
    simp [isExpired]
  cases h : fileAt t cwd path with
  | none => rw [lookup_of_no_file h, Option.bind_none]
  | some f => simp [lookup_of_file h, answerOf, hfresh]

/-- Where a path ends in no link, the file that it names is what lies there. -/
theorem fileAt_of_resolve (hl : ∀ target, t.node? loc ≠ some (.link target))
    (h : resolve t cwd false path = .ok loc) : fileAt t cwd path = fileOf (t.node? loc) := by
  rw [fileAt]
  cases hnode : t.node? loc with
  | none =>
    rw [stat_of_free h hnode]
    rfl
  | some node =>
    have hlink : ∀ target, node ≠ .link target := by
      rintro target rfl
      exact hl target hnode
    rw [stat_of_resolve hlink h hnode]
    cases node with
    | file f => rfl
    | directory => rfl
    | link target => exact absurd rfl (hlink target)

theorem fileAt_of_file {f : RegularFile} (h : resolve t cwd false path = .ok loc)
    (hfile : t.node? loc = some (.file f)) : fileAt t cwd path = some f := by
  have hlink : ∀ target, t.node? loc ≠ some (.link target) := by
    rw [hfile]
    nofun
  rw [fileAt_of_resolve hlink h, hfile]
  rfl

/-- Where a file lies at the end of a path, one does or nothing does after looking. -/
theorem lookup_keeps_place {f : RegularFile} (hloc : resolve t cwd false path = .ok loc)
    (hfile : t.node? loc = some (.file f)) (limit : Int) :
    resolve (lookup t cwd now limit path).2 cwd false path = .ok loc ∧
      ∀ target, (lookup t cwd now limit path).2.node? loc ≠ some (.link target) := by
  rw [lookup_of_file (fileAt_of_file hloc hfile)]
  simp only
  split
  · rw [discard, removeFile_of_file hloc hfile]
    simp only
    refine ⟨resolve_keeps (keeps_of_erase_file hfile) hloc, ?_⟩
    rw [t.node?_erase_self (ne_root_of_file hfile)]
    nofun
  · refine ⟨hloc, ?_⟩
    rw [hfile]
    nofun

theorem fileAt_of_no_way (h : ∀ l, resolve t cwd false path ≠ .ok l) :
    fileAt t cwd path = none := by
  cases hfile : fileAt t cwd path with
  | none => rfl
  | some f =>
    obtain ⟨loc, hstat⟩ := fileAt_eq_some hfile
    unfold stat at hstat
    split at hstat
    · cases hstat
    · next l hl =>
      obtain ⟨l', hl'⟩ := resolve_false hl
      exact absurd hl' (h l')

theorem fileOf_of_grows (h : Grows t t') (loc : Location) :
    fileOf (t'.node? loc) = fileOf (t.node? loc) := by
  rcases h loc with hsame | ⟨hfree, hnew⟩
  · rw [hsame]
  · rw [hfree, hnew]
    rfl

end PromptRunner.Cache
