import PromptRunner.Proofs.Files.Contents

/-!
# What following a path looks at

A way looks at some places and at no others (`visits`). So two trees in which the same lies in these
places lead a path to the same place, with the same error if there is none, whatever lies elsewhere;
and what an operation does at the end of the path is then the same in both. Of the places on the way
it even is enough that they are the same directories and links, so that a new file does not change
which places are looked at.

A part of a tree that a path keeps out of is a part that it neither leads into nor looks at
(`KeepsOut`). Trees that differ in such a part only (`AgreeOff`) cannot be told apart by the path.
-/

namespace PromptRunner.Files

open PromptRunner.Text

variable {t t' : Tree} {follow : Bool} {links : Nat} {cwd loc l place : Location}
  {rest s : List Step} {path directory : String} {now : Int} {content : Bytes} {f : RegularFile}

/-- What lies in a place, as far as a way minds: a directory or a link. -/
def Tree.bearing (t : Tree) (loc : Location) : Option Node :=
  match t.node? loc with
  | some (.file _) => none
  | node => node

theorem bearing_directory : t.bearing loc = some .directory ↔ t.node? loc = some .directory := by
  unfold Tree.bearing
  split
  · next f hnode => simp [hnode]
  · rfl

theorem bearing_link {target : String} :
    t.bearing loc = some (.link target) ↔ t.node? loc = some (.link target) := by
  unfold Tree.bearing
  split
  · next f hnode => simp [hnode]
  · rfl

theorem bearing_congr (h : t.node? l = t'.node? l) : t.bearing l = t'.bearing l := by
  rw [Tree.bearing, Tree.bearing, h]

/-- A file bears nowhere, and so does a free place. -/
theorem bearing_put_file (h : t.node? place = none ∨ ∃ g, t.node? place = some (.file g))
    (f : RegularFile) (l : Location) : (t.put place (.file f)).bearing l = t.bearing l := by
  by_cases hl : l = place
  · subst hl
    have hroot : l ≠ [] := by
      rintro rfl
      rcases h with hfree | ⟨g, hfile⟩
      · cases hfree
      · cases hfile
    rw [Tree.bearing, t.node?_put_self _ hroot, Tree.bearing]
    rcases h with hfree | ⟨g, hfile⟩
    · rw [hfree]
    · rw [hfile]
  · exact bearing_congr (t.node?_put_ne _ hl)

/-! ## The places of a way -/

/-- The places that a way looks at, where `through` goes on behind a link that was replaced. -/
def visitsWith (t : Tree) (follow : Bool) (through : Location → List Step → List Location) :
    Location → List Step → List Location
  | loc, [] => [loc]
  | loc, step :: rest =>
    loc ::
      if t.bearing loc = some .directory then
        match step with
        | .stay => visitsWith t follow through loc rest
        | .up => visitsWith t follow through loc.tail rest
        | .into name =>
          match t.bearing (name :: loc) with
          | some (.link target) =>
            (name :: loc) ::
              if rest.isEmpty && !follow then []
              else through (startOf loc target) (Path.steps target ++ rest)
          | _ => visitsWith t follow through (name :: loc) rest
      else []

/-- The places that a way through at most so many links looks at. -/
def visitSteps (t : Tree) (follow : Bool) : Nat → Location → List Step → List Location
  | 0 => visitsWith t follow fun _ _ => []
  | links + 1 => visitsWith t follow (visitSteps t follow links)

/-- The places that following a path looks at. -/
def visits (t : Tree) (cwd : Location) (follow : Bool) (path : String) : List Location :=
  visitSteps t follow linkLimit (startOf cwd path) (Path.steps path)

variable {seen seen' : Location → List Step → List Location}
variable {through through' : Location → List Step → Except Errno Location}

theorem start_mem_visitsWith : loc ∈ visitsWith t follow seen loc s := by
  cases s with
  | nil => exact List.mem_singleton_self loc
  | cons step rest => exact List.mem_cons_self

/-- The places depend on the directories and links among them. -/
theorem visitsWith_congr
    (hseen : ∀ loc s, (∀ l ∈ seen loc s, t.bearing l = t'.bearing l) → seen' loc s = seen loc s)
    (h : ∀ l ∈ visitsWith t follow seen loc s, t.bearing l = t'.bearing l) :
    visitsWith t' follow seen' loc s = visitsWith t follow seen loc s := by
  induction s generalizing loc with
  | nil => rfl
  | cons step rest ih =>
    have hloc := h loc start_mem_visitsWith
    simp only [visitsWith, ← hloc] at h ⊢
    split
    · next hd =>
      rw [if_pos hd] at h
      have h := fun l hl => h l (List.mem_cons_of_mem loc hl)
      congr 1
      cases step with
      | stay => exact ih h
      | up => exact ih h
      | into name =>
        simp only at h ⊢
        -- whichever way goes on, the place of the name is looked at first
        have hnext : t.bearing (name :: loc) = t'.bearing (name :: loc) := by
          refine h _ ?_
          split
          · exact List.mem_cons_self
          · exact start_mem_visitsWith
        rw [← hnext]
        split
        · next target hlink =>
          simp only [hlink] at h
          congr 1
          split
          · rfl
          · next hlast =>
            rw [if_neg hlast] at h
            exact hseen _ _ fun l hl => h l (List.mem_cons_of_mem _ hl)
        · next hother =>
          refine ih fun l hl => h l ?_
          split
          · next target hlink => exact absurd hlink (hother target)
          · exact hl
    · rfl

theorem visitSteps_congr (h : ∀ l ∈ visitSteps t follow links loc s, t.bearing l = t'.bearing l) :
    visitSteps t' follow links loc s = visitSteps t follow links loc s := by
  induction links generalizing loc s with
  | zero => exact visitsWith_congr (fun _ _ _ => rfl) h
  | succ links ih => exact visitsWith_congr (fun _ _ => ih) h

theorem visits_congr (h : ∀ l ∈ visits t cwd follow path, t.bearing l = t'.bearing l) :
    visits t' cwd follow path = visits t cwd follow path := visitSteps_congr h

/-- A way is the same where the same lies in the places that it looks at. -/
theorem followWith_congr
    (hthrough : ∀ loc s, (∀ l ∈ seen loc s, t.node? l = t'.node? l) →
      through' loc s = through loc s)
    (h : ∀ l ∈ visitsWith t follow seen loc s, t.node? l = t'.node? l) :
    followWith t' follow through' loc s = followWith t follow through loc s := by
  induction s generalizing loc with
  | nil => rfl
  | cons step rest ih =>
    have hloc := h loc start_mem_visitsWith
    simp only [followWith, Tree.isDirectoryAt, ← hloc]
    split
    · rfl
    · next hd =>
      have hd : t.node? loc = some .directory := by simpa using hd
      simp only [visitsWith, bearing_directory.2 hd, if_true] at h
      have h := fun l hl => h l (List.mem_cons_of_mem loc hl)
      cases step with
      | stay => exact ih h
      | up => exact ih h
      | into name =>
        simp only at h ⊢
        have hnext : t.node? (name :: loc) = t'.node? (name :: loc) := by
          refine h _ ?_
          split
          · exact List.mem_cons_self
          · exact start_mem_visitsWith
        rw [← hnext]
        split
        · rfl
        · split
          · next target hlink =>
            rw [bearing_link.2 hlink] at h
            split
            · rfl
            · next hlast =>
              simp only [hlast, Bool.false_eq_true, if_false] at h
              exact hthrough _ _ fun l hl => h l (List.mem_cons_of_mem _ hl)
          · next node hother hnode =>
            refine ih fun l hl => h l ?_
            split
            · next target hlink =>
              have hsame := (bearing_link.1 hlink).symm.trans hnode
              exact absurd (Option.some.inj hsame).symm (hother target)
            · exact hl
          · rfl

theorem followSteps_congr (h : ∀ l ∈ visitSteps t follow links loc s, t.node? l = t'.node? l) :
    followSteps t' follow links loc s = followSteps t follow links loc s := by
  induction links generalizing loc s with
  | zero => exact followWith_congr (fun _ _ _ => rfl) h
  | succ links ih => exact followWith_congr (fun _ _ => ih) h

theorem resolve_congr (h : ∀ l ∈ visits t cwd follow path, t.node? l = t'.node? l) :
    resolve t' cwd follow path = resolve t cwd follow path := by
  simp only [resolve, followSteps_congr h]

theorem mem_visitsWith (hthrough : ∀ {loc s}, through loc s = .ok l → l ∈ seen loc s)
    (h : followWith t follow through loc s = .ok l) : l ∈ visitsWith t follow seen loc s := by
  induction s generalizing loc with
  | nil =>
    cases h
    exact start_mem_visitsWith
  | cons step rest ih =>
    have hd := directory_of_followWith h
    simp only [visitsWith, bearing_directory.2 hd, if_true]
    refine List.mem_cons_of_mem loc ?_
    cases step with
    | stay =>
      rw [followWith_stay hd] at h
      exact ih h
    | up =>
      rw [followWith_up hd] at h
      exact ih h
    | into name =>
      rw [followWith_into hd (length_of_followWith h)] at h
      dsimp only
      split
      · next target hlink =>
        rw [bearing_link.1 hlink] at h
        simp only at h
        split at h
        · cases h
          exact List.mem_cons_self
        · next hlast =>
          rw [if_neg hlast]
          exact List.mem_cons_of_mem _ (hthrough h)
      · next hother =>
        split at h
        · next target hlink => exact absurd (bearing_link.2 hlink) (hother target)
        · exact ih h
        · split at h
          · cases h
            exact start_mem_visitsWith
          · cases h

theorem mem_visits_of_resolve (h : resolve t cwd follow path = .ok l) :
    l ∈ visits t cwd follow path := by
  have hsteps : ∀ links loc s, followSteps t follow links loc s = .ok l →
      l ∈ visitSteps t follow links loc s := by
    intro links
    induction links with
    | zero => exact fun loc s hgo => mem_visitsWith (fun hnone => by cases hnone) hgo
    | succ links ih => exact fun loc s hgo => mem_visitsWith (ih _ _) hgo
  exact hsteps _ _ _ (resolve_iff.1 h).2

theorem visitsWith_follow (hseen : ∀ loc s, seen loc s ⊆ seen' loc s) :
    visitsWith t false seen loc s ⊆ visitsWith t true seen' loc s := by
  induction s generalizing loc with
  | nil => exact List.Subset.refl _
  | cons step rest ih =>
    simp only [visitsWith]
    refine List.cons_subset_cons loc ?_
    split
    · cases step with
      | stay => exact ih
      | up => exact ih
      | into name =>
        dsimp only
        split
        · refine List.cons_subset_cons _ ?_
          split
          · exact List.nil_subset _
          · simp only [Bool.not_true, Bool.and_false, Bool.false_eq_true, if_false]
            exact hseen _ _
        · exact ih
    · exact List.Subset.refl _

theorem visits_follow (follow : Bool) : visits t cwd follow path ⊆ visits t cwd true path := by
  cases follow with
  | true => exact List.Subset.refl _
  | false =>
    have hsteps : ∀ links loc s,
        visitSteps t false links loc s ⊆ visitSteps t true links loc s := by
      intro links
      induction links with
      | zero => exact fun loc s => visitsWith_follow fun _ _ => List.Subset.refl _
      | succ links ih => exact fun loc s => visitsWith_follow ih
    exact hsteps _ _ _

/-! ## Parts of a tree that a path keeps out of -/

variable {part : Location → Prop}

/-- Trees that differ in a part only. -/
def AgreeOff (part : Location → Prop) (t t' : Tree) : Prop :=
  ∀ l, ¬ part l → t.node? l = t'.node? l

theorem AgreeOff.refl (t : Tree) : AgreeOff part t t := fun _ _ => rfl

theorem AgreeOff.trans {u : Tree} (h : AgreeOff part t t') (h' : AgreeOff part t' u) :
    AgreeOff part t u :=
  fun l hl => (h l hl).trans (h' l hl)

theorem agreeOff_put {node : Node} (h : part l) : AgreeOff part t (t.put l node) := by
  intro other hother
  have hne : other ≠ l := fun heq => hother (heq ▸ h)
  exact (t.node?_put_ne _ hne).symm

/-- A part in which nothing has changed. -/
def Spared (part : Location → Prop) (t t' : Tree) : Prop := ∀ l, part l → t'.node? l = t.node? l

theorem Spared.refl (t : Tree) : Spared part t t := fun _ _ => rfl

theorem Spared.trans {u : Tree} (h : Spared part t t') (h' : Spared part t' u) : Spared part t u :=
  fun l hl => (h' l hl).trans (h l hl)

/-- A path that neither leads into a part nor looks at it on the way. -/
def KeepsOut (part : Location → Prop) (t : Tree) (cwd : Location) (path : String) : Prop :=
  ∀ l ∈ visits t cwd true path, ¬ part l

instance [DecidablePred part] : Decidable (KeepsOut part t cwd path) :=
  inferInstanceAs (Decidable (∀ l ∈ visits t cwd true path, ¬ part l))

namespace KeepsOut

theorem visited (h : KeepsOut part t cwd path) (hl : l ∈ visits t cwd follow path) : ¬ part l :=
  h l (visits_follow follow hl)

theorem start (h : KeepsOut part t cwd path) : ¬ part (startOf cwd path) := h _ start_mem_visitsWith

theorem not_at (h : KeepsOut part t cwd path) (hl : resolve t cwd follow path = .ok l) : ¬ part l :=
  h.visited (mem_visits_of_resolve hl)

theorem of_bearing (h : KeepsOut part t cwd path) (hb : ∀ l, t'.bearing l = t.bearing l) :
    KeepsOut part t' cwd path := by
  rw [KeepsOut, visits_congr fun l _ => (hb l).symm]
  exact h

variable (h : KeepsOut part t cwd path) (ha : AgreeOff part t t')
include h ha

theorem congr : KeepsOut part t' cwd path := by
  rw [KeepsOut, visits_congr fun l hl => bearing_congr (ha l (h l hl))]
  exact h

theorem resolve : resolve t' cwd follow path = resolve t cwd follow path :=
  resolve_congr fun l hl => ha l (h.visited hl)

theorem stat : stat t' cwd path = stat t cwd path := by
  simp only [Files.stat, h.resolve ha]
  cases hl : Files.resolve t cwd true path with
  | error e => rfl
  | ok l => simp only [ha l (h.not_at hl)]

theorem readBytes : readBytes t' cwd path = readBytes t cwd path := by
  simp only [Files.readBytes, h.stat ha]

theorem readText : readText t' cwd path = readText t cwd path := by
  simp only [Files.readText, h.readBytes ha]

theorem isFile : isFile t' cwd path = isFile t cwd path := by simp only [Files.isFile, h.stat ha]

theorem changeDirectory : changeDirectory t' cwd path = changeDirectory t cwd path := by
  simp only [Files.changeDirectory, h.stat ha]

end KeepsOut

end PromptRunner.Files
