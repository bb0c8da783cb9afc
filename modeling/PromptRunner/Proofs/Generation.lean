import PromptRunner.Generation
import PromptRunner.Proofs.Cache.Document

/-!
# The kinds of steps

A step finds its answer in the cache, or asks for it and keeps it, or asks for it and leaves the
cache alone. Which of the three it is depends on the demand and on one look into the cache. What an
asking step answers does not depend on the files (`asking`); whether its answer could be kept does
(`keeping`).
-/

namespace PromptRunner.Generation

open PromptRunner.Files PromptRunner.Json PromptRunner.Number PromptRunner.Provider

variable {ask : Ask} {s : Surroundings} {t : Tree} {directory : String} {d : Demand}

/-- The entry that an answer is kept in. -/
def entryOf (s : Surroundings) (d : Demand) (c : Completion) : Cache.Entry :=
  ⟨d.model, d.prompt, kept c, Cache.timestamp s.now⟩

/-- What a step asked for, if it asks. -/
def asking (ask : Ask) (d : Demand) : Except Failure String :=
  match ask (query d.model d.prompt) with
  | .error e => .error (.generation e)
  | .ok c => .ok (kept c)

/-- The tree after a step that asks and keeps what it gets. -/
def keeping (ask : Ask) (s : Surroundings) (t : Tree) (directory : String) (d : Demand) :
    Except IoError Unit × Tree :=
  match ask (query d.model d.prompt) with
  | .error _ => (.ok (), t)
  | .ok c => Cache.store t s.cwd s.now s.names (Cache.filePath directory d.model d.prompt)
      (entryOf s d c)

theorem generate_without_cache (h : usesCache d = false) :
    generate ask s t directory d =
      ⟨asking ask d, t, some (query d.model d.prompt)⟩ := by
  rw [generate, h, if_neg Bool.false_ne_true, askProvider, asking]
  cases ask (query d.model d.prompt) <;> rfl

theorem generate_hit (h : usesCache d = true) {answer : String}
    (hhit : (Cache.lookup t s.cwd s.now d.limit
      (Cache.filePath directory d.model d.prompt)).1 = some answer) :
    generate ask s t directory d =
      ⟨.ok answer, (Cache.lookup t s.cwd s.now d.limit
        (Cache.filePath directory d.model d.prompt)).2, none⟩ := by
  simp only [generate, h, if_true]
  split
  · next found t' hlookup =>
    rw [hlookup] at hhit
    cases hhit
    rw [hlookup]
  · next t' hlookup =>
    rw [hlookup] at hhit
    cases hhit

/-- A step that finds none asks, and keeps what it gets. -/
theorem generate_miss (h : usesCache d = true)
    (hmiss : (Cache.lookup t s.cwd s.now d.limit
      (Cache.filePath directory d.model d.prompt)).1 = none) :
    generate ask s t directory d =
      ⟨asking ask d,
        (keeping ask s (Cache.lookup t s.cwd s.now d.limit
          (Cache.filePath directory d.model d.prompt)).2 directory d).2,
        some (query d.model d.prompt)⟩ := by
  simp only [generate, h, if_true]
  split
  · next found t' hlookup =>
    rw [hlookup] at hmiss
    cases hmiss
  · next t' hlookup =>
    simp only [hlookup, askProvider, asking, keeping]
    cases ask (query d.model d.prompt) with
    | error e => rfl
    | ok c => simp only [entryOf]

end PromptRunner.Generation
