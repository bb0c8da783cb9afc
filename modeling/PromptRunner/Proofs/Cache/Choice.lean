import PromptRunner.Cache.Directory
import PromptRunner.Proofs.Files.Furnishing
import PromptRunner.Proofs.Files.Visiting

/-!
# Choosing the cache directory again

The choice of a cache directory looks at the files: a project's own directory comes first as soon as
it is there. Making the chosen directory may make the project's own one as well, namely when the one
that was chosen lies in it or is written through it. Then the next run chooses the project's own,
and finds none of the entries, unless both are one directory. In all other cases the choice stays as
it was, and after the second run it always does.
-/

namespace PromptRunner.Cache

open PromptRunner.Files PromptRunner.Settings

variable {t made settled : Tree} {cwd l : Location} {current path other name : String}
  {configured : Option String} {env : Environment}

/-- Two paths are one, or name one directory. -/
def SameDirectory (t : Tree) (cwd : Location) (path other : String) : Prop :=
  path = other ∨
    ∃ l, stat t cwd path = .ok (l, .directory) ∧ stat t cwd other = .ok (l, .directory)

/-- On the way of another path there is a place where a directory was made for a path. -/
def MadeOnTheWay (t made : Tree) (cwd : Location) (path other : String) : Prop :=
  ∃ l ∈ visits made cwd true other, t.node? l = none ∧
    ∃ outer, Outer path outer ∧ stat made cwd (Path.withoutSlashes outer) = .ok (l, .directory)

/-- A directory that was not there before lies behind one that was made. -/
theorem madeOnTheWay_of_new (h : Furnished t made cwd path)
    (hmissing : isDirectory t cwd other = false) (hmade : isDirectory made cwd other = true) :
    MadeOnTheWay t made cwd path other := by
  by_contra hnone
  have hsame : ∀ l ∈ visits made cwd true other, made.node? l = t.node? l := by
    intro l hl
    rcases h l with hsame | hnew
    · exact hsame
    · exact absurd ⟨l, hl, hnew⟩ hnone
  obtain ⟨l, hstat⟩ := isDirectory_iff.1 hmade
  obtain ⟨hl, hd⟩ := stat_iff.1 hstat
  have hbefore : stat t cwd other = .ok (l, .directory) := by
    rw [hsame l (mem_visits_of_resolve hl)] at hd
    exact stat_iff.2 ⟨(resolve_congr hsame).trans hl, hd⟩
  rw [isDirectory_of_stat hbefore] at hmissing
  cases hmissing

/-! ## The two choices -/

theorem directory_of_own (h : isDirectory t cwd (Path.join current localName) = true) :
    directory t cwd current configured env = Path.join current localName := if_pos h

theorem directory_congr
    (h : isDirectory made cwd (Path.join current localName) =
      isDirectory t cwd (Path.join current localName)) :
    directory made cwd current configured env = directory t cwd current configured env := by
  simp only [directory, h]

/-- The choice of a project's own directory makes nothing. -/
theorem made_eq_of_own (hown : isDirectory t cwd (Path.join current localName) = true)
    (h : ensureDirectory t cwd (directory t cwd current configured env) = .ok made) : made = t := by
  rw [directory_of_own hown, ensureDirectory, createDirectories_of_isDirectory hown] at h
  exact (Except.ok.inj h).symm

/-- What is chosen again is the same, or the project's own, which has been made. -/
theorem again_cases (h : ensureDirectory t cwd (directory t cwd current configured env) = .ok made) :
    directory made cwd current configured env = directory t cwd current configured env ∨
      isDirectory t cwd (Path.join current localName) = false ∧
      isDirectory made cwd (Path.join current localName) = true ∧
      directory made cwd current configured env = Path.join current localName := by
  cases hold : isDirectory t cwd (Path.join current localName) with
  | true =>
    rw [made_eq_of_own hold h]
    exact .inl rfl
  | false =>
    cases hnew : isDirectory made cwd (Path.join current localName) with
    | true => exact .inr ⟨rfl, rfl, directory_of_own hnew⟩
    | false => exact .inl (directory_congr (hnew.trans hold.symm))

theorem furnished_of_ensureDirectory (h : ensureDirectory t cwd path = .ok made) :
    Furnished t made cwd path := by
  have hfurnished := furnished_of_createDirectories t cwd path
  rw [ensureDirectory] at h
  rwa [h] at hfurnished

/-- Names in one directory lie in one place, whichever of its paths they are joined to. -/
theorem SameDirectory.resolve_iff (h : SameDirectory t cwd path other) (hname : Plain name)
    (hpath : Admissible (Path.join path name)) (hother : Admissible (Path.join other name)) :
    resolve t cwd false (Path.join other name) = .ok l ↔
      resolve t cwd false (Path.join path name) = .ok l := by
  rcases h with rfl | ⟨d, hd, hd'⟩
  · rfl
  · rw [resolve_join hname, resolve_join hname, reach_of_stat hd, reach_of_stat hd']
    simp only [hpath, hother, true_and]

/-- The choice of a cache directory is stable, unless making the chosen directory has made the
project's own as well, which is another one: a place on the way of the project's own was free and
has become the chosen directory or one that it lies in. Where the project's own is there from the
beginning, it is chosen, and nothing is made. A stable choice finds every entry where it was, unless
its path has become too long. And what is chosen then is chosen for good: making it again changes
nothing. -/
theorem choice_is_stable_iff
    (h : ensureDirectory t cwd (directory t cwd current configured env) = .ok made) :
    let own := Path.join current localName
    let picked := directory t cwd current configured env
    let again := directory made cwd current configured env
    (SameDirectory made cwd picked again ↔
      ¬ (MadeOnTheWay t made cwd picked own ∧ ∃ l, stat made cwd own = .ok (l, .directory) ∧
        stat made cwd picked ≠ .ok (l, .directory))) ∧
    (isDirectory t cwd own = true → picked = own ∧ again = own ∧ made = t) ∧
    (SameDirectory made cwd picked again → ∀ name l, Plain name →
      Admissible (Path.join picked name) → Admissible (Path.join again name) →
      (resolve made cwd false (Path.join again name) = .ok l ↔
        resolve made cwd false (Path.join picked name) = .ok l)) ∧
    ∀ settled, ensureDirectory made cwd again = .ok settled → settled = made := by
  intro own picked again
  refine ⟨⟨?_, ?_⟩, fun hown => ?_, fun hsame name l hname => hsame.resolve_iff hname,
    fun settled hsettled => ?_⟩
  · rintro hsame ⟨-, l, hstat, hother⟩
    have hown : again = own := directory_of_own (isDirectory_of_stat hstat)
    rw [hown] at hsame
    rcases hsame with hpicked | ⟨l', hpicked, hstat'⟩
    · rw [hpicked] at hother
      exact hother hstat
    · rw [hstat] at hstat'
      cases hstat'
      exact hother hpicked
  · intro hstable
    rcases again_cases h with hsame | ⟨hmissing, hmade, hown⟩
    · exact .inl hsame.symm
    · have hway := madeOnTheWay_of_new (furnished_of_ensureDirectory h) hmissing hmade
      obtain ⟨l, hstat⟩ := isDirectory_iff.1 hmade
      rw [show again = own from hown]
      by_contra hdifferent
      exact hstable ⟨hway, l, hstat, fun hpicked => hdifferent (.inr ⟨l, hpicked, hstat⟩)⟩
  · obtain rfl := made_eq_of_own hown h
    exact ⟨directory_of_own hown, directory_of_own hown, rfl⟩
  · rcases again_cases h with hsame | ⟨-, hmade, hown⟩
    · rw [show again = picked from hsame, ensureDirectory] at hsettled
      have htwice := createDirectories_twice h
      rw [hsettled] at htwice
      exact htwice
    · rw [show again = own from hown, ensureDirectory,
        createDirectories_of_isDirectory hmade] at hsettled
      exact (Except.ok.inj hsettled).symm

/-- A place to work in, with nothing in it. -/
def emptyWork : Tree := ⟨[(["work"], .directory)]⟩

/-- The project's own directory by a relative path is the same by its full path. -/
theorem own_directory_by_a_relative_path :
    let picked := directory emptyWork ["work"] "/work" (some ".llmexec-cache") []
    let made := madeSoFar (ensureDirectory emptyWork ["work"] picked)
    let again := directory made ["work"] "/work" (some ".llmexec-cache") []
    picked = ".llmexec-cache" ∧ ensureDirectory emptyWork ["work"] picked = .ok made ∧
      again = "/work/.llmexec-cache" ∧ SameDirectory made ["work"] picked again := by
  intro picked made again
  have hmade : ensureDirectory emptyWork ["work"] picked = .ok made :=
    eq_ok_madeSoFar (by decide +kernel)
  have hown : stat made ["work"] (Path.join "/work" localName) =
      .ok ([".llmexec-cache", "work"], .directory) := by decide +kernel
  have hpicked : stat made ["work"] picked = .ok ([".llmexec-cache", "work"], .directory) := by
    decide +kernel
  obtain ⟨hstable, -⟩ := choice_is_stable_iff hmade
  refine ⟨by decide +kernel, hmade, by decide +kernel, hstable.2 ?_⟩
  rintro ⟨-, l, hl, hother⟩
  rw [hown] at hl
  cases hl
  exact hother hpicked

/-- A directory in the project's own one is chosen, and the next choice is the project's own, which
has been made with it. -/
theorem directory_in_the_own_one_is_left :
    let picked := directory .empty [] "/" (some ".llmexec-cache/sub") []
    let made := madeSoFar (ensureDirectory .empty [] picked)
    let again := directory made [] "/" (some ".llmexec-cache/sub") []
    picked = ".llmexec-cache/sub" ∧ ensureDirectory .empty [] picked = .ok made ∧
      again = "/.llmexec-cache" ∧ ¬ SameDirectory made [] picked again := by
  intro picked made again
  have hpicked : stat made [] picked = .ok (["sub", ".llmexec-cache"], .directory) := by
    decide +kernel
  have hagain : stat made [] again = .ok ([".llmexec-cache"], .directory) := by decide +kernel
  refine ⟨by decide +kernel, eq_ok_madeSoFar (by decide +kernel), by decide +kernel, ?_⟩
  rintro (hsame | ⟨l, hl, hl'⟩)
  · exact absurd hsame (by decide +kernel)
  · rw [hpicked] at hl
    rw [hagain] at hl'
    cases hl
    exact absurd hl' (by decide)

end PromptRunner.Cache
