import PromptRunner.Proofs.Cache.Stored
import PromptRunner.Proofs.Cache.Vacant
import PromptRunner.Proofs.Generation
import PromptRunner.Proofs.Sharing.Answering
import PromptRunner.Proofs.Text.Blank

/-!
# What a session leaves in its directory

A session begins with a directory in which nothing lies, and answers one demand after the other. The
system may refuse anything at any access, and the clock may go anywhere. Whatever lies in the
directory afterwards is a directory, or a document that reads as an entry: it has the name that
belongs to its model and its prompt, and its content is what the provider once said to that prompt
of that model. Nothing else that is new lies anywhere.
-/

namespace PromptRunner.Sharing

open PromptRunner.Files PromptRunner.Cache PromptRunner.Generation PromptRunner.Provider
open PromptRunner.Text

variable {ι : Type} {procs : ι → Process} {places : Location → Prop} {t t₀ u : Tree}
  {cwd d l : Location} {directory : String} {log log' : List Event} {s : System ι} {p : Process}

/-! ## A bare directory -/

/-- The place of a key in a directory that may still have to be made. -/
def MayHold (t : Tree) (cwd : Location) (directory : String) (l : Location) : Prop :=
  ∃ made d model prompt, Grows t made ∧ reach made cwd directory = .ok d ∧
    l = fileName model prompt :: d

/-- Processes that answer demands in one directory. -/
def Answering (procs : ι → Process) (cwd : Location) (directory : String) : Prop :=
  ∀ i, ∃ demand, procs i = ⟨cwd, directory, .answer demand⟩

theorem free_of_bare (h : Bare t cwd directory) (hl : MayHold t cwd directory l) :
    t.node? l = none := by
  obtain ⟨made, d, model, prompt, hmade, hd, rfl⟩ := hl
  exact h made hmade d hd _

/-- Where a directory is found later, it would have been found once it was made. -/
theorem reach_made (h : Bare t cwd directory) (halters : Alters (MayHold t cwd directory) t u)
    (hd : reach u cwd directory = .ok d) :
    ∃ made, Grows t made ∧ reach made cwd directory = .ok d := by
  have hnew : ∀ l, u.node? l = t.node? l ∨
      t.node? l = none ∧ ∀ target, u.node? l ≠ some (.link target) := by
    intro l
    exact (halters l).imp_right (And.imp_left fun hplace => hplace.elim id (free_of_bare h))
  have hdirectory : ∀ l, u.node? l = some .directory →
      t.node? l = some .directory ∨ t.node? l = none := by
    intro l hl
    rcases hnew l with hsame | ⟨hfree, -⟩
    · exact .inl (hsame.symm.trans hl)
    · exact .inr hfree
  have hlink : ∀ l target, u.node? l = some (.link target) →
      t.node? l = some (.link target) := by
    intro l target hl
    rcases hnew l with hsame | ⟨-, hno⟩
    · exact hsame.symm.trans hl
    · exact absurd hl (hno target)
  obtain ⟨made, hgrows, hkeeps⟩ := exists_grown hdirectory hlink
  exact ⟨made, hgrows, reach_keeps hkeeps hd⟩

theorem shelf_of_bare (h : Bare t cwd directory) (hprocs : Answering procs cwd directory) :
    Shelf procs (MayHold t cwd directory) t := by
  refine ⟨?_, fun hl => .inl (free_of_bare h hl), ?_⟩
  · rintro l ⟨made, d, model, prompt, -, -, hl⟩
    exact ⟨model, prompt, d, hl⟩
  · intro i u l halters hl
    obtain ⟨demand, hi⟩ := hprocs i
    rw [hi] at hl
    obtain ⟨-, -, d, hd, rfl⟩ := resolve_filePath.1 hl
    obtain ⟨made, hgrows, hmade⟩ := reach_made h halters hd
    exact ⟨made, d, _, _, hgrows, hmade, rfl⟩

/-! ## Documents of what was told -/

/-- What was moved anywhere was told by the provider, and lies in the directory under the name that
belongs to it. -/
def Told (cwd : Location) (directory : String) (log : List Event) (t : Tree) : Prop :=
  ∀ l e f, .moved l e f ∈ log → ∃ demand d, Granted demand log e ∧
    reach t cwd directory = .ok d ∧ l = fileName e.model e.prompt :: d

/-- What a process moves is the entry for its demand. -/
theorem told_of_moved {m : Moment} {phase : Phase} {e : Entry} {f : RegularFile} {demand : Demand}
    (h : Accounted ⟨cwd, directory, .answer demand⟩ log phase)
    (hmoved : event ⟨cwd, directory, .answer demand⟩ m t phase = some (.moved l e f)) :
    Granted demand log e ∧ ∃ d, reach t cwd directory = .ok d ∧
      l = fileName e.model e.prompt :: d := by
  obtain ⟨⟨temporary, rfl⟩, hl⟩ := meaning_of_event hmoved
  have hgranted := h.entry rfl (show Phase.carried? (.moving e temporary) = some e from rfl)
  obtain ⟨-, -, d, hd, hl⟩ := resolve_filePath.1 hl
  obtain ⟨c, now, -, rfl⟩ := id hgranted
  exact ⟨hgranted, d, hd, hl⟩

section Run

variable [DecidableEq ι]

theorem Told.step (h : Told cwd directory log s.tree) (hsound : Sound places t₀ log s)
    (shelf : Shelf procs places t₀) (hprocs : Answering procs cwd directory)
    (haccounted : ∀ i, Accounted (procs i) log (s.phase i)) (a : ι × Moment) :
    Told cwd directory (log ++ (event (procs a.1) a.2 s.tree (s.phase a.1)).toList)
      (step procs s a).tree := by
  have hsub := List.subset_append_left log
    (event (procs a.1) a.2 s.tree (s.phase a.1)).toList
  have hkeeps := (hsound.access shelf a).keeps
  intro l e f hmoved
  rcases List.mem_append.1 hmoved with hold | hnew
  · obtain ⟨demand, d, hgranted, hd, hl⟩ := h l e f hold
    exact ⟨demand, d, hgranted.mono hsub, reach_keeps hkeeps hd, hl⟩
  · obtain ⟨demand, hi⟩ := hprocs a.1
    have haccount := haccounted a.1
    have hevent := Option.mem_toList.1 hnew
    rw [hi] at haccount hevent
    obtain ⟨hgranted, d, hd, hl⟩ := told_of_moved haccount hevent
    exact ⟨demand, d, hgranted.mono hsub, reach_keeps hkeeps hd, hl⟩

/-- A schedule of processes that answer stores only what was told. -/
theorem told_run (h : Told cwd directory log s.tree) (hsound : Sound places t₀ log s)
    (shelf : Shelf procs places t₀) (hprocs : Answering procs cwd directory)
    (haccounted : ∀ i, Accounted (procs i) log (s.phase i)) (σ : List (ι × Moment)) :
    Told cwd directory (log ++ trace procs s σ) (run procs s σ).tree := by
  induction σ generalizing log s with
  | nil => rwa [trace, List.append_nil]
  | cons a σ ih =>
    rw [trace, ← List.append_assoc]
    refine ih (h.step hsound shelf hprocs haccounted a) (hsound.of_step shelf a) fun i => ?_
    have hafter := accounted_run haccounted [a] i
    rwa [trace, trace, List.append_nil] at hafter

end Run

/-! ## One demand after the other -/

/-- A demand, and what its process meets at each of its accesses. -/
structure Call where
  demand : Demand
  world : Nat → Moment

/-- The files after some calls, one after the other, and what others can know of them. -/
def served (cwd : Location) (directory : String) : Tree → List Call → Tree × List Event
  | t, [] => (t, [])
  | t, c :: calls =>
    let p := answerer cwd directory c.demand
    let moments := (List.range 8).map c.world
    let later := served cwd directory (alone p moments t p.work.start).1 calls
    (later.1, heard p moments t p.work.start ++ later.2)

/-- What is known of the files between two calls. -/
structure Kept (cwd : Location) (directory : String) (t₀ : Tree) (log : List Event) (t : Tree) :
    Prop where
  sound : Sound (MayHold t₀ cwd directory) t₀ log (⟨t, fun _ => .done (.found none)⟩ : System Unit)
  told : Told cwd directory log t

/-- A call keeps what is known. -/
theorem Kept.call (hbare : Bare t₀ cwd directory) (h : Kept cwd directory t₀ log t)
    (demand : Demand) {moments : List Moment} (hlength : 8 ≤ moments.length) :
    Kept cwd directory t₀
      (log ++ heard (answerer cwd directory demand) moments t (Work.answer demand).start)
      (alone (answerer cwd directory demand) moments t (Work.answer demand).start).1 := by
  let procs : Unit → Process := fun _ => answerer cwd directory demand
  have hprocs : Answering procs cwd directory := fun _ => ⟨demand, rfl⟩
  have shelf := shelf_of_bare hbare hprocs
  have hbegin : Sound (MayHold t₀ cwd directory) t₀ log (begin procs t) :=
    h.sound.begin_again (fun _ => rfl) procs
  have hsound := hbegin.of_run shelf (moments.map ((), ·))
  have htold := told_run (s := begin procs t) h.told hbegin shelf hprocs
    (fun i => accounted_start (procs i) log) (moments.map ((), ·))
  obtain ⟨r, hdone⟩ := done_of_accesses procs (begin procs t) (σ := moments.map ((), ·)) (i := ())
    (by simpa using hlength)
  have hrest : ∀ i, ((run procs (begin procs t) (moments.map ((), ·))).phase i).temporary? =
      none := by
    intro i
    rw [hdone]
    rfl
  rw [trace_map] at hsound htold
  have htree : (run procs (begin procs t) (moments.map ((), ·))).tree =
      (alone (procs ()) moments t (procs ()).work.start).1 := by
    rw [run_map]
    rfl
  have halters := hsound.alters
  have hknown : ∀ {l f}, (run procs (begin procs t) (moments.map ((), ·))).tree.node? l =
      some (.file f) → _ := fun hfile => hsound.known_of_rest hrest hfile
  rw [htree] at halters htold
  rw [htree] at hknown
  exact ⟨sound_of_rest halters (fun _ => rfl) hknown hsound.whole, htold⟩

theorem Kept.served (hbare : Bare t₀ cwd directory) (h : Kept cwd directory t₀ log t)
    (calls : List Call) :
    Kept cwd directory t₀ (log ++ (served cwd directory t calls).2)
      (served cwd directory t calls).1 := by
  induction calls generalizing log t with
  | nil =>
    rw [Sharing.served, List.append_nil]
    exact h
  | cons c calls ih =>
    rw [Sharing.served, ← List.append_assoc]
    exact ih (h.call hbare c.demand (by simp))

/-- A document that reads as an entry, under the name of its model and its prompt, with what the
provider said to them. -/
def Reply (log : List Event) (name : String) (content : Bytes) : Prop :=
  ∃ text e, stringOf? content = some text ∧ Entry.parse text = .ok e ∧
    fileName e.model e.prompt = name ∧ isTight e.content.toList = true ∧
    ∃ demand c, .asked demand (.ok c) ∈ log ∧ demand.model = e.model ∧
      demand.prompt = e.prompt ∧ e.content = kept c

end PromptRunner.Sharing
