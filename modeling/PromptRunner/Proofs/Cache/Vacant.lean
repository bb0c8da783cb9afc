import PromptRunner.Proofs.Cache.Held
import PromptRunner.Proofs.Files.Growing

/-!
# A directory to start with

A directory is vacant if no key of it holds anything, and bare if nothing at all lies in it, whatever
directories are made on the way. That it is empty is enough. That it is missing is enough too, as
long as no step of its path goes up: otherwise making what is missing may open a way to a directory
that is full.
-/

namespace PromptRunner.Cache

open PromptRunner.Files

variable {t : Tree} {cwd d : Location} {directory : String}

/-- No key of a directory holds anything, whatever directories are made. -/
def Vacant (t : Tree) (cwd : Location) (directory : String) : Prop :=
  ∀ model prompt, Holds t cwd (filePath directory model prompt) none

/-- Nothing lies in a directory, whatever directories are made. -/
def Bare (t : Tree) (cwd : Location) (directory : String) : Prop :=
  ∀ made, Grows t made → ∀ d, reach made cwd directory = .ok d → ∀ name, t.node? (name :: d) = none

/-- A key of a bare directory holds nothing. -/
theorem vacant_of_bare (h : Bare t cwd directory) : Vacant t cwd directory := by
  intro model prompt
  refine .nothing fun made hmade loc hloc => ?_
  obtain ⟨-, -, d, hd, rfl⟩ := resolve_filePath.1 hloc
  exact .inl (h made hmade d hd _)

/-- An empty directory is bare. -/
theorem bare_of_empty (hd : stat t cwd directory = .ok (d, .directory))
    (hempty : ∀ name, t.node? (name :: d) = none) : Bare t cwd directory := by
  intro made hmade d' hd'
  have hsame := reach_keeps hmade.keeps (reach_of_stat hd)
  rw [hd'] at hsame
  cases hsame
  exact hempty

/-- A missing directory is bare, unless its path goes up. -/
theorem bare_of_missing (hrooted : Rooted t) (hlinks : Descending t)
    (hup : Step.up ∉ leadIn directory) (hmissing : ∀ d, reach t cwd directory ≠ .ok d) :
    Bare t cwd directory := by
  intro made hmade d hd
  rcases reach_of_grows hrooted hlinks hmade hup hd with hthere | hfree
  · exact absurd hthere (hmissing d)
  · exact hrooted.below hfree

/-- An empty directory is vacant. -/
theorem vacant_of_empty (hd : stat t cwd directory = .ok (d, .directory))
    (hempty : ∀ name, t.node? (name :: d) = none) : Vacant t cwd directory :=
  vacant_of_bare (bare_of_empty hd hempty)

/-- A missing directory is vacant, unless its path goes up. -/
theorem vacant_of_missing (hrooted : Rooted t) (hlinks : Descending t)
    (hup : Step.up ∉ leadIn directory) (hmissing : ∀ d, reach t cwd directory ≠ .ok d) :
    Vacant t cwd directory :=
  vacant_of_bare (bare_of_missing hrooted hlinks hup hmissing)

end PromptRunner.Cache
