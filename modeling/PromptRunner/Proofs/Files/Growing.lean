import PromptRunner.Proofs.Files.Changing

/-!
# Ways into a growing tree

A way that leads nowhere may lead somewhere once directories have been made. Where it can go up
again behind such a directory, as in `gone/../kept`, it may then lead to a place that was always
there. Where no step goes up, it ends below what was made, and there was nothing below it before.
-/

namespace PromptRunner.Files

variable {t t' made : Tree} {links : Nat} {cwd loc l : Location} {s : List Step}
variable {through through' : Location → List Step → Except Errno Location}

/-- Whatever lies somewhere lies in a directory. -/
def Rooted (t : Tree) : Prop :=
  ∀ {name loc node}, t.node? (name :: loc) = some node → t.node? loc = some .directory

/-- No link of a tree goes up. -/
def Descending (t : Tree) : Prop :=
  ∀ {loc target}, t.node? loc = some (.link target) → Step.up ∉ Path.steps target

theorem rooted_empty : Rooted .empty := nofun

theorem descending_empty : Descending .empty := by
  intro loc target h
  cases loc <;> cases h

theorem Rooted.below (h : Rooted t) (hfree : t.node? loc = none) (name : String) :
    t.node? (name :: loc) = none := by
  cases hnode : t.node? (name :: loc) with
  | none => rfl
  | some node =>
    rw [h hnode] at hfree
    cases hfree

theorem Grows.link {target : String} (h : Grows t made)
    (hlink : made.node? loc = some (.link target)) : t.node? loc = some (.link target) := by
  rcases h loc with hsame | ⟨-, hnew⟩
  · rw [← hsame, hlink]
  · rw [hnew] at hlink
    cases hlink

theorem Grows.directory (h : Grows t made) (hd : made.node? loc = some .directory) :
    t.node? loc = some .directory ∨ t.node? loc = none := by
  rcases h loc with hsame | ⟨hfree, -⟩
  · exact .inl (hsame ▸ hd)
  · exact .inr hfree

/-- A way down from a place that was free ends in one. -/
theorem free_of_followWith (hrooted : Rooted t) (hgrows : Grows t made) (hup : Step.up ∉ s)
    (hfree : t.node? loc = none) (h : followWith made false through loc s = .ok l) :
    t.node? l = none := by
  induction s generalizing loc with
  | nil =>
    cases h
    exact hfree
  | cons step rest ih =>
    rw [List.mem_cons, not_or] at hup
    obtain ⟨hstep, hrest⟩ := hup
    have hd := directory_of_followWith h
    cases step with
    | stay =>
      rw [followWith_stay hd] at h
      exact ih hrest hfree h
    | up => exact absurd rfl hstep
    | into name =>
      have hbelow := hrooted.below hfree name
      by_cases hlast : rest = []
      · subst hlast
        obtain ⟨-, -, rfl⟩ := followWith_last_iff.1 h
        exact hbelow
      · obtain ⟨-, -, ⟨target, hlink, -⟩ | ⟨-, hgo⟩⟩ := (followWith_into_iff hlast).1 h
        · rw [hgrows.link hlink] at hbelow
          cases hbelow
        · exact ih hrest hbelow hgo

/-- A way down was always there, or it ends in a place that was free. -/
theorem followWith_of_grows (hrooted : Rooted t) (hlinks : Descending t) (hgrows : Grows t made)
    (hup : Step.up ∉ s)
    (hthrough : ∀ {loc s}, Step.up ∉ s → through loc s = .ok l →
      through' loc s = .ok l ∨ t.node? l = none)
    (h : followWith made false through loc s = .ok l) :
    followWith t false through' loc s = .ok l ∨ t.node? l = none := by
  induction s generalizing loc with
  | nil => exact .inl h
  | cons step rest ih =>
    have hmade := directory_of_followWith h
    rcases hgrows.directory hmade with hd | hfree
    · rw [List.mem_cons, not_or] at hup
      obtain ⟨hstep, hrest⟩ := hup
      cases step with
      | stay =>
        rw [followWith_stay hmade] at h
        rw [followWith_stay hd]
        exact ih hrest h
      | up => exact absurd rfl hstep
      | into name =>
        by_cases hlast : rest = []
        · subst hlast
          obtain ⟨-, hlength, hl⟩ := followWith_last_iff.1 h
          exact .inl (followWith_last_iff.2 ⟨hd, hlength, hl⟩)
        · rw [followWith_into_iff hlast]
          obtain ⟨-, hlength, ⟨target, hlink, hgo⟩ | ⟨hnext, hgo⟩⟩ :=
            (followWith_into_iff hlast).1 h
          · have hlink := hgrows.link hlink
            have hdown : Step.up ∉ Path.steps target ++ rest := by
              rw [List.mem_append]
              exact not_or.2 ⟨hlinks hlink, hrest⟩
            exact (hthrough hdown hgo).imp_left fun hgo =>
              ⟨hd, hlength, .inl ⟨target, hlink, hgo⟩⟩
          · rcases hgrows.directory hnext with hnext | hfree
            · exact (ih hrest hgo).imp_left fun hgo => ⟨hd, hlength, .inr ⟨hnext, hgo⟩⟩
            · exact .inr (free_of_followWith hrooted hgrows hrest hfree hgo)
    · exact .inr (free_of_followWith hrooted hgrows hup hfree h)

theorem followSteps_of_grows (hrooted : Rooted t) (hlinks : Descending t) (hgrows : Grows t made)
    (hup : Step.up ∉ s) (h : followSteps made false links loc s = .ok l) :
    followSteps t false links loc s = .ok l ∨ t.node? l = none := by
  induction links generalizing loc s with
  | zero => exact followWith_of_grows hrooted hlinks hgrows hup (fun _ hgo => by cases hgo) h
  | succ links ih => exact followWith_of_grows hrooted hlinks hgrows hup ih h

/-- A directory that names are joined to was always there, or it has been made. -/
theorem reach_of_grows {directory : String} (hrooted : Rooted t) (hlinks : Descending t)
    (hgrows : Grows t made) (hup : Step.up ∉ leadIn directory)
    (h : reach made cwd directory = .ok l) :
    reach t cwd directory = .ok l ∨ t.node? l = none := by
  refine followSteps_of_grows hrooted hlinks hgrows ?_ h
  rw [List.mem_append]
  exact not_or.2 ⟨hup, by decide⟩

/-! ## The directories of another tree -/

theorem lookup_map_pair (locs : List Location) (node : Node) (loc : Location) :
    (locs.map (·, node)).lookup loc = if loc ∈ locs then some node else none := by
  induction locs with
  | nil => rfl
  | cons first locs ih =>
    rw [List.map_cons, List.lookup_cons, ih]
    by_cases hfirst : loc = first
    · simp [hfirst]
    · simp [hfirst, beq_eq_false_iff_ne.2 hfirst]

/-- The places of a tree where directories lie. -/
def directoriesOf (t : Tree) : List Location := (t.entries.map (·.1)).filter t.isDirectoryAt

theorem mem_directoriesOf (hloc : loc ≠ []) :
    loc ∈ directoriesOf t ↔ t.node? loc = some .directory := by
  simp only [directoriesOf, List.mem_filter, Tree.isDirectoryAt, decide_eq_true_eq,
    and_iff_right_iff_imp]
  intro hd
  rw [Tree.node?, if_neg hloc] at hd
  obtain ⟨before, after, hentries, -⟩ := List.lookup_eq_some_iff.1 hd
  rw [hentries]
  simp

/-- A tree that has no directories but those of another one and some in free places, and no new
links, has the ways of a tree that grew from the other. -/
theorem exists_grown
    (hdirectory : ∀ loc, t'.node? loc = some .directory →
      t.node? loc = some .directory ∨ t.node? loc = none)
    (hlink : ∀ loc target, t'.node? loc = some (.link target) →
      t.node? loc = some (.link target)) : ∃ made, Grows t made ∧ Keeps t' made := by
  let made : Tree := ⟨t.entries ++ (directoriesOf t').map (·, .directory)⟩
  have hnode : ∀ loc, loc ≠ [] → made.node? loc =
      (t.node? loc).or (if t'.node? loc = some .directory then some .directory else none) := by
    intro loc hloc
    have hmem := mem_directoriesOf (t := t') hloc
    simp only [made, Tree.node?, if_neg hloc, List.lookup_append, lookup_map_pair] at hmem ⊢
    simp only [hmem]
  refine ⟨made, fun loc => ?_, fun {loc} hd => ?_, fun {loc target} hl => ?_⟩
  · by_cases hloc : loc = []
    · subst hloc
      exact .inl rfl
    · rw [hnode loc hloc]
      cases t.node? loc with
      | some node => exact .inl rfl
      | none =>
        split
        · exact .inr ⟨rfl, rfl⟩
        · exact .inl rfl
  · by_cases hloc : loc = []
    · rw [hloc, made.node?_root]
    · rw [hnode loc hloc, hd, if_pos rfl]
      rcases hdirectory loc hd with hold | hfree
      · rw [hold]
        rfl
      · rw [hfree]
        rfl
  · have hloc : loc ≠ [] := by
      rintro rfl
      cases hl
    rw [hnode loc hloc, hlink loc target hl]
    rfl

end PromptRunner.Files
