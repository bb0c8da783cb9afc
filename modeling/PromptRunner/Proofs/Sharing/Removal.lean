import PromptRunner.Proofs.Sharing.Reading

/-!
# What a lookup removes

A process decides by its glance at a file that it is too old, and later removes what lies in the
same place. If nothing was moved there in between, that is the file of the glance. If something was,
it is that, however new: between the two accesses of one process another one may store a fresh
answer, and lose it. Both are shown of every removal in every schedule, and the second of them
happens.
-/

namespace PromptRunner.Sharing

open PromptRunner.Files PromptRunner.Cache PromptRunner.Generation PromptRunner.Text

variable {ι : Type} {procs : ι → Process} {t : Tree} {d place : Location} {s : System ι}
  {p : Process} {m : Moment} {phase : Phase} {i : ι} {limit modified : Int}

/-! ## One access -/

/-- The limit of age is passed by and by, not undone by waiting. -/
theorem isExpired_later {now later : Int} (h : isExpired now limit modified = true)
    (hlater : now ≤ later) : isExpired later limit modified = true := by
  simp only [isExpired, Bool.and_eq_true, decide_eq_true_eq] at h ⊢
  exact ⟨h.1, h.2.trans (max_le_max_left 0 (Int.sub_le_sub_right hlater modified))⟩

/-- A process comes to remove a file only by its glance at it. -/
theorem expired_of_advance (h : (advance p m t phase).2 = .expired) :
    phase = .looking ∧ glance t p.cwd m.now p.work.limit p.path = .expired := by
  have hrank := rank_advance p m t phase
  rw [h] at hrank
  cases phase with
  | looking =>
    refine ⟨rfl, ?_⟩
    simp only [advance] at h
    split at h
    · next hglance => exact hglance
    · cases h
    · cases hwork : p.work <;> simp [hwork, Work.missed] at h
  | _ => exact absurd hrank (by simp [Phase.rank])

/-- What a glance finds expired is a file that is too old. -/
theorem file_of_glance (hplace : resolve t p.cwd false p.path = .ok place)
    (hlink : ∀ target, t.node? place ≠ some (.link target))
    (h : glance t p.cwd m.now p.work.limit p.path = .expired) :
    ∃ f, t.node? place = some (.file f) ∧ isExpired m.now p.work.limit f.modified = true := by
  unfold glance at h
  split at h
  · cases h
  · split at h
    · next l f hstat =>
      obtain ⟨hl, hfile⟩ := stat_iff.1 hstat
      rw [resolve_true hlink hplace] at hl
      cases hl
      split at h
      · next hexpired => exact ⟨f, hfile, hexpired⟩
      · cases h
    · cases h

/-- A glance at a file says that the path leads there. -/
theorem way_of_glance (h : glance t p.cwd m.now p.work.limit p.path = .expired) :
    ∃ l, resolve t p.cwd false p.path = .ok l := by
  unfold glance at h
  split at h
  · cases h
  · split at h
    · next hstat => exact resolve_false (stat_iff.1 hstat).1
    · cases h

theorem tree_looking : (advance p m t .looking).1 = t := by
  simp only [advance]
  split <;> rfl

/-! ## Between the glance and the removal -/

section Run

variable [DecidableEq ι]

/-- A process that is about to remove a file had its glance before, and no access since. -/
theorem glance_before (hstart : s.phase i ≠ .expired) (σ : List (ι × Moment))
    (h : (run procs s σ).phase i = .expired) :
    ∃ before m between, σ = before ++ (i, m) :: between ∧ (∀ a ∈ between, a.1 ≠ i) ∧
      (run procs s before).phase i = .looking ∧
      glance (run procs s before).tree (procs i).cwd m.now (procs i).work.limit (procs i).path =
        .expired := by
  induction σ using List.reverseRecOn with
  | nil => exact absurd h hstart
  | append_singleton σ a ih =>
    rw [run_append] at h
    by_cases ha : a.1 = i
    · subst ha
      have hstep : (step procs (run procs s σ) a).phase a.1 = .expired := h
      rw [phase_step_self] at hstep
      obtain ⟨hlooking, hglance⟩ := expired_of_advance hstep
      exact ⟨σ, a.2, [], rfl, nofun, hlooking, hglance⟩
    · have hstep : (step procs (run procs s σ) a).phase i = .expired := h
      rw [phase_step_ne procs _ (Ne.symm ha)] at hstep
      obtain ⟨before, m, between, rfl, hothers, hlooking, hglance⟩ := ih hstep
      refine ⟨before, m, between ++ [a], by simp, ?_, hlooking, hglance⟩
      intro b hb
      rcases List.mem_append.1 hb with hb | hb
      · exact hothers b hb
      · rw [List.mem_singleton.1 hb]
        exact ha

omit [DecidableEq ι] in
/-- No process begins by removing a file. -/
theorem begin_ne_expired (procs : ι → Process) (t : Tree) (i : ι) :
    (begin procs t).phase i ≠ .expired := by
  show (procs i).work.start ≠ .expired
  cases (procs i).work with
  | answer demand =>
    simp only [Work.start]
    split <;> simp
  | _ => simp [Work.start]

/-- What a process removes is the file that it had its glance at, which was too old then and is so
at any later time, or the file that was moved in its place last since then. -/
theorem removed_was_glanced_at_or_moved (h : Shared procs t d) {σ : List (ι × Moment)} {m' : Moment}
    {node : Node}
    (hremoved : event (procs i) m' (run procs (begin procs t) σ).tree
      ((run procs (begin procs t) σ).phase i) = some (.removed place node)) :
    ∃ before m between f g, σ = before ++ (i, m) :: between ∧ (∀ a ∈ between, a.1 ≠ i) ∧
      (run procs (begin procs t) before).phase i = .looking ∧
      (run procs (begin procs t) before).tree.node? place = some (.file f) ∧
      isExpired m.now (procs i).work.limit f.modified = true ∧
      node = .file g ∧
      match lastMoved place
        (trace procs (run procs (begin procs t) (before ++ [(i, m)])) between) with
      | none => g = f ∧ ∀ later, m.now ≤ later →
          isExpired later (procs i).work.limit g.modified = true
      | some new => g = new := by
  obtain ⟨hphase, hplace, hnode, hdirectory⟩ := meaning_of_event hremoved
  obtain ⟨before, m, between, rfl, hothers, hlooking, hglance⟩ :=
    glance_before (begin_ne_expired procs t i) σ hphase
  have hbefore := h.sound before
  have hglanced := h.sound (before ++ [(i, m)])
  have hsplit : run procs (begin procs t) (before ++ (i, m) :: between) =
      run procs (run procs (begin procs t) (before ++ [(i, m)])) between := by
    rw [← run_append, List.append_assoc, List.singleton_append]
  -- the path leads to one place from the glance to the removal
  obtain ⟨l, hl⟩ := way_of_glance hglance
  have hlater := resolve_keeps (hbefore.keeps_run h.shelf ((i, m) :: between)) hl
  rw [← run_append, hplace] at hlater
  cases hlater
  have hkey := h.shelf.leads hbefore.alters hl
  obtain ⟨f, hfile, hexpired⟩ := file_of_glance hl (h.shelf.no_link hbefore.alters hkey) hglance
  obtain ⟨g, rfl⟩ : ∃ g, node = .file g := by
    cases node with
    | file g => exact ⟨g, rfl⟩
    | directory => exact absurd rfl hdirectory
    | link target =>
      exact absurd hnode (h.shelf.no_link (h.sound _).alters hkey target)
  refine ⟨before, m, between, f, g, rfl, hothers, hlooking, hfile, hexpired, rfl, ?_⟩
  have hsame : (run procs (begin procs t) (before ++ [(i, m)])).tree =
      (run procs (begin procs t) before).tree := by
    rw [run_append]
    simp only [run, step, hlooking, tree_looking]
  rw [hsplit] at hnode
  rcases hglanced.file_after h.shelf hkey between hnode with hmoved | ⟨hnone, hthere⟩
  · rw [hmoved]
  · rw [hnone]
    rw [hsame, hfile] at hthere
    cases hthere
    exact ⟨rfl, fun later hlater => isExpired_later hexpired hlater⟩

/-- A process that looks for an answer that is younger than a second. -/
def hurried : Process := ⟨[], "cache", .lookup "m" "p" 1⟩

/-- A process that is alone removes the old document of its glance. -/
theorem an_old_answer_is_removed :
    let glance := [((), quiet (2 * second))]
    let s := run (fun _ => hurried) (begin (fun _ => hurried) settled) glance
    let old : RegularFile :=
      ⟨bytesOf (Entry.mk "m" "p" "old" (timestamp 0)).text, 0, false⟩
    event hurried (quiet (2 * second)) s.tree (s.phase ()) =
        some (.removed ["p.m.dc52f28a8a.json", "cache"] (.file old)) ∧
      ∃ before m between f, glance = before ++ ((), m) :: between ∧
        (run (fun _ => hurried) (begin (fun _ => hurried) settled) before).tree.node?
          ["p.m.dc52f28a8a.json", "cache"] = some (.file f) ∧
        isExpired m.now 1 f.modified = true := by
  intro glance s old
  have hremoved : event hurried (quiet (2 * second)) s.tree (s.phase ()) =
      some (.removed ["p.m.dc52f28a8a.json", "cache"] (.file old)) := by decide +kernel
  have hshared : Shared (fun _ : Unit => hurried) settled ["cache"] :=
    shared_settled fun _ => ⟨rfl, rfl⟩
  obtain ⟨before, m, between, f, g, hglance, -, -, hfile, hexpired, -⟩ :=
    removed_was_glanced_at_or_moved (i := ()) hshared hremoved
  exact ⟨hremoved, before, m, between, f, hglance, hfile, hexpired⟩

/-- Two processes that look for a young answer, and one that stores one. -/
def rivals (i : Fin 3) : Process where
  cwd := []
  directory := "cache"
  work := if i = 1 then .store "m" "p" ⟨"m", "p", "new", timestamp (2 * second)⟩
    else .lookup "m" "p" 1

/-- A directory with a link to an old document under the name of a key. -/
def linked : Tree :=
  ⟨[(["old.json"], .file ⟨bytesOf (Entry.mk "m" "p" "old" (timestamp 0)).text, 0, false⟩),
    (["cache"], .directory), (["p.m.dc52f28a8a.json", "cache"], .link "../old.json")]⟩

/-- A process has its glance at an old document, another one stores a new one, and the first removes
it: who looks next finds nothing. And where a glance goes through a link to an old document, it is the
link that is removed, however new. -/
theorem a_fresh_answer_is_removed :
    (let now := 2 * second
     let stored := run rivals (begin rivals settled)
       ((0, quiet now) :: List.replicate 4 (1, quiet now))
     let fresh : RegularFile :=
       ⟨bytesOf (Entry.mk "m" "p" "new" (timestamp now)).text, now, false⟩
     stored.phase 1 = .done (.stored (.ok ())) ∧
       event (rivals 0) (quiet now) stored.tree (stored.phase 0) =
         some (.removed ["p.m.dc52f28a8a.json", "cache"] (.file fresh)) ∧
       isExpired now 1 fresh.modified = false ∧
       (run rivals stored [(0, quiet now), (2, quiet now)]).phase 2 = .done (.found none)) ∧
    (let after := (lookup linked [] (100 * second) 10 (filePath "cache" "m" "p")).2
     linked.node? ["p.m.dc52f28a8a.json", "cache"] = some (.link "../old.json") ∧
       after.node? ["p.m.dc52f28a8a.json", "cache"] = none ∧
       after.node? ["old.json"] = linked.node? ["old.json"]) := by
  decide +kernel

end Run

end PromptRunner.Sharing
