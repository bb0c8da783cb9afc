import Mathlib.Logic.Function.Basic
import PromptRunner.Proofs.Files.Changing
import PromptRunner.Proofs.Generation

/-!
# One access to the files at a time

A process that looks an answer up glances at a file, and then removes it or reads it. One that
stores an entry makes the directory, makes a temporary file, fills it and moves it, and removes it
if that goes wrong. One that answers a demand does the first, asks the provider if it has to, and
does the second. Between two of these accesses other processes have theirs, the clock may go
anywhere, and at each access the system may refuse what it is asked for: a directory that cannot be
written and a full disk are refusals.

`advance` is one access, `event` what it lets others know, and a `System` is any number of processes
over one tree, whose accesses a schedule puts in an order. A process that is alone and is refused
nothing does what `lookup`, `store` and `generate` say (`lookup_eq_alone`, `store_eq_alone`,
`generate_eq_alone`); so these are the same program, taken apart.
-/

namespace PromptRunner.Sharing

open PromptRunner.Files PromptRunner.Cache PromptRunner.Generation PromptRunner.Provider

/-- Why the system does not do what it is asked for, and how far it got: how many bytes it wrote, or
how many of the directories it did not come to. -/
structure Refusal where
  cause : IoError
  progress : Nat
  deriving DecidableEq, Repr

/-- What a process meets at one access: the time, the names that its temporary file may get, what
the provider answers, and whether the system refuses. -/
structure Moment where
  now : Int
  names : List String
  ask : Ask
  refusal : Option Refusal

/-- What a process does with the cache. -/
inductive Work where
  | lookup (model prompt : String) (limit : Int)
  | store (model prompt : String) (entry : Entry)
  | answer (d : Demand)
  deriving DecidableEq, Repr

/-- What comes of it. -/
inductive Result where
  | found (answer : Option String)
  | stored (outcome : Except IoError Unit)
  | answered (outcome : Except Failure String)
  deriving DecidableEq

/-- Where a process stands: before which access, and with which entry and temporary file. -/
inductive Phase where
  | looking
  | expired
  | valid
  | asking
  | preparing (e : Entry)
  | creating (e : Entry)
  | filling (e : Entry) (temporary : String)
  | moving (e : Entry) (temporary : String)
  | dropping (e : Entry) (temporary : String) (cause : IoError)
  | done (r : Result)
  deriving DecidableEq

/-- What others can know of an access: what was asked and answered, and which document was found,
removed or moved where. -/
inductive Event where
  | asked (d : Demand) (reply : Except Failure Completion)
  | found (place : Location) (content : String)
  | removed (place : Location) (node : Node)
  | moved (place : Location) (e : Entry) (f : RegularFile)
  deriving DecidableEq

namespace Work

/-- The model and the prompt of the key. -/
def key : Work → String × String
  | .lookup model prompt _ => (model, prompt)
  | .store model prompt _ => (model, prompt)
  | .answer d => (d.model, d.prompt)

/-- How old an answer may be. -/
def limit : Work → Int
  | .lookup _ _ limit => limit
  | .store .. => 0
  | .answer d => d.limit

def start : Work → Phase
  | .lookup .. => .looking
  | .store _ _ e => .preparing e
  | .answer d => if usesCache d then .looking else .asking

/-- What follows when no answer was found. -/
def missed : Work → Phase
  | .answer _ => .asking
  | _ => .done (.found none)

/-- What follows when an answer was found. -/
def hit (content : String) : Work → Phase
  | .answer _ => .done (.answered (.ok content))
  | _ => .done (.found (some content))

/-- What follows when the provider has replied. -/
def replied (m : Moment) : Work → Phase
  | .answer d =>
    match m.ask (query d.model d.prompt) with
    | .error f => .done (.answered (.error (.generation f)))
    | .ok c =>
      if usesCache d then .preparing ⟨d.model, d.prompt, kept c, timestamp m.now⟩
      else .done (.answered (.ok (kept c)))
  | _ => .done (.found none)

/-- What follows when an entry was stored or could not be. -/
def closed (e : Entry) (outcome : Except IoError Unit) : Work → Phase
  | .answer _ => .done (.answered (.ok e.content))
  | _ => .done (.stored outcome)

end Work

/-- A process: where it runs, which cache it uses, and what for. -/
structure Process where
  cwd : Location
  directory : String
  work : Work
  deriving DecidableEq, Repr

namespace Process

def name (p : Process) : String := fileName p.work.key.1 p.work.key.2

def path (p : Process) : String := filePath p.directory p.work.key.1 p.work.key.2

/-- The directory that the path lies in by its text. -/
def parent (p : Process) : String := (Path.parent? p.path).getD ""

end Process

/-- A path that lies so many levels further out by its text. -/
def outward : Nat → String → String
  | 0, path => path
  | levels + 1, path => ((Path.parent? path).map (outward levels)).getD ""

/-- One access of a process: what becomes of the tree, and where the process stands then. -/
def advance (p : Process) (m : Moment) (t : Tree) : Phase → Tree × Phase
  | .looking =>
    match m.refusal, glance t p.cwd m.now p.work.limit p.path with
    | none, .expired => (t, .expired)
    | none, .valid => (t, .valid)
    | _, _ => (t, p.work.missed)
  | .expired =>
    match m.refusal with
    | none => (discard t p.cwd p.path, p.work.missed)
    | some _ => (t, p.work.missed)
  | .valid =>
    match m.refusal, readAnswer t p.cwd p.path with
    | none, some content => (t, p.work.hit content)
    | _, _ => (t, p.work.missed)
  | .asking => (t, p.work.replied m)
  | .preparing e =>
    match m.refusal with
    | none =>
      match createDirectories t p.cwd p.parent with
      | .ok t => (t, .creating e)
      | .error (cause, t) => (t, p.work.closed e (.error cause))
    | some r =>
      (madeSoFar (createDirectories t p.cwd (outward (r.progress + 1) p.parent)),
        p.work.closed e (.error r.cause))
  | .creating e =>
    match m.refusal with
    | none =>
      match createTemporary t p.cwd m.now p.parent temporaryName m.names with
      | .ok (temporary, t) => (t, .filling e temporary)
      | .error cause => (t, p.work.closed e (.error cause))
    | some r => (t, p.work.closed e (.error r.cause))
  | .filling e temporary =>
    match m.refusal with
    | none =>
      match writeFile t p.cwd m.now temporary (Text.bytesOf e.text) with
      | .ok t => (t, .moving e temporary)
      | .error cause => (t, .dropping e temporary cause)
    | some r =>
      match writeFile t p.cwd m.now temporary ((Text.bytesOf e.text).take r.progress) with
      | .ok t => (t, .dropping e temporary r.cause)
      | .error cause => (t, .dropping e temporary cause)
  | .moving e temporary =>
    match m.refusal with
    | none =>
      match rename t p.cwd temporary p.path with
      | .ok t => (t, p.work.closed e (.ok ()))
      | .error cause => (t, .dropping e temporary cause)
    | some r => (t, .dropping e temporary r.cause)
  | .dropping e temporary cause => (discard t p.cwd temporary, p.work.closed e (.error cause))
  | .done r => (t, .done r)

/-- What others can know of an access. -/
def event (p : Process) (m : Moment) (t : Tree) : Phase → Option Event
  | .expired =>
    match m.refusal, resolve t p.cwd false p.path, removeFile t p.cwd p.path with
    | none, .ok place, .ok _ => (t.node? place).map (.removed place)
    | _, _, _ => none
  | .valid =>
    match m.refusal, resolve t p.cwd false p.path, readAnswer t p.cwd p.path with
    | none, .ok place, some content => some (.found place content)
    | _, _, _ => none
  | .asking =>
    match p.work with
    | .answer d => some (.asked d (m.ask (query d.model d.prompt)))
    | _ => none
  | .moving e temporary =>
    match m.refusal, resolve t p.cwd false p.path, rename t p.cwd temporary p.path with
    | none, .ok place, .ok t' =>
      match t'.node? place with
      | some (.file f) => some (.moved place e f)
      | _ => none
    | _, _, _ => none
  | _ => none

/-! ## Processes over one tree -/

/-- A tree, and where each of some processes stands. -/
structure System (ι : Type) where
  tree : Tree
  phase : ι → Phase

variable {ι : Type} [DecidableEq ι]

/-- Processes that have not begun. -/
def begin (procs : ι → Process) (t : Tree) : System ι := ⟨t, fun i => (procs i).work.start⟩

/-- An access of one process. -/
def step (procs : ι → Process) (s : System ι) (a : ι × Moment) : System ι :=
  let next := advance (procs a.1) a.2 s.tree (s.phase a.1)
  ⟨next.1, Function.update s.phase a.1 next.2⟩

/-- The system after a schedule: who has the next access, and what it meets. -/
def run (procs : ι → Process) : System ι → List (ι × Moment) → System ι
  | s, [] => s
  | s, a :: schedule => run procs (step procs s a) schedule

/-- What others can know of a schedule. -/
def trace (procs : ι → Process) : System ι → List (ι × Moment) → List Event
  | _, [] => []
  | s, a :: schedule =>
    (event (procs a.1) a.2 s.tree (s.phase a.1)).toList ++ trace procs (step procs s a) schedule

theorem run_append (procs : ι → Process) (s : System ι) (σ τ : List (ι × Moment)) :
    run procs s (σ ++ τ) = run procs (run procs s σ) τ := by
  induction σ generalizing s with
  | nil => rfl
  | cons a σ ih => exact ih (step procs s a)

/-- Other processes stay where they stand. -/
theorem phase_step_ne (procs : ι → Process) (s : System ι) {a : ι × Moment} {j : ι}
    (h : j ≠ a.1) : (step procs s a).phase j = s.phase j := Function.update_of_ne h _ _

theorem phase_step_self (procs : ι → Process) (s : System ι) (a : ι × Moment) :
    (step procs s a).phase a.1 = (advance (procs a.1) a.2 s.tree (s.phase a.1)).2 :=
  Function.update_self ..

/-! ## Coming to an end -/

/-- How many accesses a process has before it at most. -/
def Phase.rank : Phase → Nat
  | .looking => 8
  | .expired => 7
  | .valid => 7
  | .asking => 6
  | .preparing _ => 5
  | .creating _ => 4
  | .filling .. => 3
  | .moving .. => 2
  | .dropping .. => 1
  | .done _ => 0

theorem done_of_rank {phase : Phase} (h : phase.rank = 0) : ∃ r, phase = .done r := by
  cases phase with
  | done r => exact ⟨r, rfl⟩
  | _ => cases h

theorem rank_missed (w : Work) : w.missed.rank ≤ 6 := by
  cases w with
  | answer d => exact Nat.le_refl 6
  | _ => exact Nat.zero_le 6

theorem rank_hit (w : Work) (content : String) (n : Nat) : (w.hit content).rank ≤ n := by
  cases w <;> exact Nat.zero_le n

theorem rank_closed (w : Work) (e : Entry) (outcome : Except IoError Unit) (n : Nat) :
    (w.closed e outcome).rank ≤ n := by
  cases w <;> exact Nat.zero_le n

theorem rank_replied (w : Work) (m : Moment) : (w.replied m).rank ≤ 5 := by
  cases w with
  | answer d =>
    simp only [Work.replied]
    split
    · exact Nat.zero_le 5
    · split
      · exact Nat.le_refl 5
      · exact Nat.zero_le 5
  | _ => exact Nat.zero_le 5

/-- Every access brings a process nearer to its end. -/
theorem rank_advance (p : Process) (m : Moment) (t : Tree) (phase : Phase) :
    (advance p m t phase).2.rank ≤ phase.rank - 1 := by
  have hmissed := rank_missed p.work
  cases phase with
  | looking =>
    simp only [advance]
    split
    · exact Nat.le_refl 7
    · exact Nat.le_refl 7
    · exact hmissed.trans (by decide)
  | expired =>
    simp only [advance]
    split <;> exact hmissed
  | valid =>
    simp only [advance]
    split
    · exact rank_hit ..
    · exact hmissed
  | asking => exact rank_replied p.work m
  | preparing e =>
    simp only [advance]
    split
    · split
      · exact Nat.le_refl 4
      · exact rank_closed ..
    · exact rank_closed ..
  | creating e =>
    simp only [advance]
    split
    · split
      · exact Nat.le_refl 3
      · exact rank_closed ..
    · exact rank_closed ..
  | filling e temporary =>
    simp only [advance]
    split
    · split
      · exact Nat.le_refl 2
      · exact Nat.le_succ 1
    · split <;> exact Nat.le_succ 1
  | moving e temporary =>
    simp only [advance]
    split
    · split
      · exact rank_closed ..
      · exact Nat.le_refl 1
    · exact Nat.le_refl 1
  | dropping e temporary cause => exact rank_closed ..
  | done r => exact Nat.le_refl 0

theorem rank_run (procs : ι → Process) (s : System ι) (σ : List (ι × Moment)) (i : ι) :
    ((run procs s σ).phase i).rank ≤ (s.phase i).rank - σ.countP (·.1 = i) := by
  induction σ generalizing s with
  | nil => exact Nat.le_refl _
  | cons a σ ih =>
    have hnext := ih (step procs s a)
    by_cases ha : a.1 = i
    · subst ha
      have hstep := rank_advance (procs a.1) a.2 s.tree (s.phase a.1)
      rw [phase_step_self] at hnext
      rw [List.countP_cons_of_pos (by simp), run]
      omega
    · rw [phase_step_ne procs s (Ne.symm ha)] at hnext
      rwa [List.countP_cons_of_neg (by simpa using ha), run]

/-- A process that had eight accesses is done. -/
theorem done_of_accesses (procs : ι → Process) (s : System ι) {σ : List (ι × Moment)} {i : ι}
    (h : 8 ≤ σ.countP (·.1 = i)) : ∃ r, (run procs s σ).phase i = .done r := by
  have hrank := rank_run procs s σ i
  have hmost : (s.phase i).rank ≤ 8 := by cases s.phase i <;> simp [Phase.rank]
  exact done_of_rank (by omega)

/-! ## A process that is alone -/

/-- The tree, and where a process stands, when it was alone for so many accesses. -/
def alone (p : Process) : List Moment → Tree → Phase → Tree × Phase
  | [], t, phase => (t, phase)
  | m :: moments, t, phase =>
    alone p moments (advance p m t phase).1 (advance p m t phase).2

/-- What others can know of a process that was alone. -/
def heard (p : Process) : List Moment → Tree → Phase → List Event
  | [], _, _ => []
  | m :: moments, t, phase =>
    (event p m t phase).toList ++ heard p moments (advance p m t phase).1 (advance p m t phase).2

theorem alone_done (p : Process) (moments : List Moment) (t : Tree) (r : Result) :
    alone p moments t (.done r) = (t, .done r) := by
  induction moments with
  | nil => rfl
  | cons m moments ih => exact ih

theorem heard_done (p : Process) (moments : List Moment) (t : Tree) (r : Result) :
    heard p moments t (.done r) = [] := by
  induction moments with
  | nil => rfl
  | cons m moments ih => exact ih

theorem run_map (procs : ι → Process) (s : System ι) (i : ι) (moments : List Moment) :
    run procs s (moments.map (i, ·)) =
      ⟨(alone (procs i) moments s.tree (s.phase i)).1,
        Function.update s.phase i (alone (procs i) moments s.tree (s.phase i)).2⟩ := by
  induction moments generalizing s with
  | nil => simp [run, alone]
  | cons m moments ih =>
    rw [List.map_cons, run, ih]
    simp [step, alone]

theorem trace_map (procs : ι → Process) (s : System ι) (i : ι) (moments : List Moment) :
    trace procs s (moments.map (i, ·)) = heard (procs i) moments s.tree (s.phase i) := by
  induction moments generalizing s with
  | nil => rfl
  | cons m moments ih =>
    rw [List.map_cons, trace, ih, heard]
    simp [step]

/-! ## Alone and undisturbed -/

section Calm

variable {p : Process} {m : Moment} {t : Tree} {e : Entry}

/-- A moment at which nothing is refused. -/
def calm (ask : Ask) (s : Surroundings) : Moment := ⟨s.now, s.names, ask, none⟩

theorem alone_closed (moments : List Moment) (t : Tree) (w : Work) (e : Entry)
    (outcome : Except IoError Unit) :
    alone p moments t (w.closed e outcome) = (t, w.closed e outcome) := by
  cases w <;> exact alone_done ..

/-- Storing is to make the directory and the temporary file, to fill it and to move it. -/
theorem alone_preparing (hcalm : m.refusal = none) (k : Nat) :
    alone p (List.replicate (k + 5) m) t (.preparing e) =
      ((store t p.cwd m.now m.names p.path e).2,
        p.work.closed e (store t p.cwd m.now m.names p.path e).1) := by
  have hparent : (Path.parent? p.path).getD "" = p.parent := rfl
  simp only [store, hparent, List.replicate_succ]
  rw [alone]
  simp only [advance, hcalm]
  cases hmade : createDirectories t p.cwd p.parent with
  | error stopped => exact alone_closed ..
  | ok t1 =>
    simp only
    rw [alone]
    simp only [advance, hcalm]
    cases hfresh : createTemporary t1 p.cwd m.now p.parent temporaryName m.names with
    | error cause => exact alone_closed ..
    | ok made =>
      obtain ⟨temporary, t2⟩ := made
      simp only [publish]
      rw [alone]
      simp only [advance, hcalm]
      cases hwrite : writeFile t2 p.cwd m.now temporary (Text.bytesOf e.text) with
      | error cause =>
        simp only
        rw [alone]
        simp only [advance]
        exact alone_closed ..
      | ok t3 =>
        simp only
        rw [alone]
        simp only [advance, hcalm]
        cases hrename : rename t3 p.cwd temporary p.path with
        | error cause =>
          simp only
          rw [alone]
          simp only [advance]
          exact alone_closed ..
        | ok t4 => exact alone_closed ..

/-- Looking up is to glance at the file, and then to remove it or to read it. -/
theorem alone_looking (hcalm : m.refusal = none) (k : Nat) :
    ∃ n, k ≤ n ∧ alone p (List.replicate (k + 2) m) t .looking =
      alone p (List.replicate n m) (lookup t p.cwd m.now p.work.limit p.path).2
        (match (lookup t p.cwd m.now p.work.limit p.path).1 with
        | some content => p.work.hit content
        | none => p.work.missed) := by
  simp only [lookup, List.replicate_succ]
  rw [alone]
  simp only [advance, hcalm]
  cases hglance : glance t p.cwd m.now p.work.limit p.path with
  | missing => exact ⟨k + 1, Nat.le_succ k, rfl⟩
  | expired =>
    refine ⟨k, Nat.le_refl k, ?_⟩
    simp only
    rw [alone]
    simp only [advance, hcalm]
  | valid =>
    refine ⟨k, Nat.le_refl k, ?_⟩
    simp only
    rw [alone]
    simp only [advance, hcalm]
    cases readAnswer t p.cwd p.path <;> rfl

variable {ask : Ask} {s : Surroundings} {cwd : Location} {directory model prompt : String}
  {d : Demand}

theorem lookup_eq_alone (hcalm : m.refusal = none) (t : Tree) (cwd : Location)
    (directory model prompt : String) (limit : Int) :
    alone ⟨cwd, directory, .lookup model prompt limit⟩ (List.replicate 8 m) t .looking =
      ((lookup t cwd m.now limit (filePath directory model prompt)).2,
        .done (.found (lookup t cwd m.now limit (filePath directory model prompt)).1)) := by
  obtain ⟨n, -, h⟩ :=
    alone_looking (p := ⟨cwd, directory, .lookup model prompt limit⟩) (t := t) hcalm 6
  refine h.trans ?_
  simp only [Process.path, Work.key, Work.limit]
  cases (lookup t cwd m.now limit (filePath directory model prompt)).1 <;> exact alone_done ..

theorem store_eq_alone (hcalm : m.refusal = none) :
    alone ⟨cwd, directory, .store model prompt e⟩ (List.replicate 8 m) t (.preparing e) =
      ((store t cwd m.now m.names (filePath directory model prompt) e).2,
        .done (.stored (store t cwd m.now m.names (filePath directory model prompt) e).1)) :=
  alone_preparing (p := ⟨cwd, directory, .store model prompt e⟩) hcalm 3

theorem alone_asking (ask : Ask) (s : Surroundings) (t : Tree) (directory : String) (d : Demand)
    (k : Nat) :
    alone ⟨s.cwd, directory, .answer d⟩ (List.replicate (k + 6) (calm ask s)) t .asking =
      ((askProvider ask s t
          (if usesCache d then some (filePath directory d.model d.prompt) else none) d).tree,
        .done (.answered (askProvider ask s t
          (if usesCache d then some (filePath directory d.model d.prompt) else none) d).result)) := by
  rw [List.replicate_succ, alone]
  simp only [advance, Work.replied, calm, askProvider]
  cases ask (query d.model d.prompt) with
  | error f => exact alone_done ..
  | ok c =>
    by_cases huses : usesCache d = true
    · simp only [huses, if_true]
      exact alone_preparing (p := ⟨s.cwd, directory, .answer d⟩) (m := calm ask s) rfl k
    · simp only [huses, Bool.false_eq_true, if_false]
      exact alone_done ..

theorem generate_eq_alone (ask : Ask) (s : Surroundings) (t : Tree) (directory : String)
    (d : Demand) :
    alone ⟨s.cwd, directory, .answer d⟩ (List.replicate 8 (calm ask s)) t (Work.answer d).start =
      ((generate ask s t directory d).tree,
        .done (.answered (generate ask s t directory d).result)) := by
  by_cases huses : usesCache d = true
  · obtain ⟨n, hn, h⟩ := alone_looking (p := ⟨s.cwd, directory, .answer d⟩) (t := t)
      (m := calm ask s) rfl 6
    obtain ⟨k, rfl⟩ := Nat.exists_eq_add_of_le' hn
    simp only [Work.start, huses, if_true]
    rw [h]
    simp only [Process.path, Work.key, Work.limit, generate, huses, if_true]
    have hnow : (calm ask s).now = s.now := rfl
    rw [hnow]
    cases lookup t s.cwd s.now d.limit (filePath directory d.model d.prompt) with
    | mk answer t' =>
      cases answer with
      | some content => exact alone_done ..
      | none =>
        have hasked := alone_asking ask s t' directory d k
        rw [if_pos huses] at hasked
        exact hasked
  · have hasked := alone_asking ask s t directory d 2
    rw [if_neg huses] at hasked
    simp only [Work.start, generate, huses, Bool.false_eq_true, if_false]
    exact hasked

end Calm

end PromptRunner.Sharing
