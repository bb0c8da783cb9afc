import PromptRunner.Proofs.Cache.Stored
import PromptRunner.Proofs.Files.Outward
import PromptRunner.Proofs.Sharing.Origins

/-!
# Processes that share a directory

Any number of processes look up, store and answer in one directory, in any order of their accesses
and whatever is refused. None of them ever reads half a document: what one finds under a key lay
there from the beginning, or it was moved there when it was complete. A process that looks up is
done after two accesses, and never fails; and in the place of a key there is nothing but such
documents, at the end and at any time before.
-/

namespace PromptRunner.Sharing

open PromptRunner.Files PromptRunner.Cache PromptRunner.Generation PromptRunner.Text

/-- The place of a key in a directory. -/
def KeyPlace (d l : Location) : Prop := ∃ model prompt, l = fileName model prompt :: d

/-- Processes that use one directory, where a key has a regular file or nothing. -/
structure Shared {ι : Type} (procs : ι → Process) (t : Tree) (d : Location) : Prop where
  reach : ∀ i, reach t (procs i).cwd (procs i).directory = .ok d
  files : ∀ model prompt, t.node? (fileName model prompt :: d) = none ∨
    ∃ f, t.node? (fileName model prompt :: d) = some (.file f)

/-- A file that is a complete document: it was there from the beginning, or it was moved there. -/
def Whole (t₀ : Tree) (log : List Event) (place : Location) (f : RegularFile) : Prop :=
  (t₀.node? place = some (.file f) ∧ (answerIn f.content).isSome) ∨
    ∃ e, .moved place e f ∈ log ∧ f.content = bytesOf e.text

variable {ι : Type} {procs : ι → Process} {places : Location → Prop} {t t₀ u : Tree}
  {d l : Location} {log : List Event} {s : System ι} {p : Process} {m : Moment} {e : Entry}

/-! ## The directory stays where it is -/

theorem Shared.file_of_key (h : Shared procs t d) (hl : KeyPlace d l) :
    t.node? l = none ∨ ∃ f, t.node? l = some (.file f) := by
  obtain ⟨model, prompt, rfl⟩ := hl
  exact h.files model prompt

/-- Where only free places and keys differ, every way is as it was. -/
theorem Shared.keeps (h : Shared procs t d) (halters : Alters (KeyPlace d) t u) : Keeps t u := by
  have hsame : ∀ {l node}, t.node? l = some node → (∀ f, node ≠ .file f) →
      u.node? l = some node := by
    intro l node hnode hfile
    rcases halters l with hsame | ⟨hfree | hkey, -⟩
    · rw [hsame, hnode]
    · rw [hnode] at hfree
      cases hfree
    · rcases h.file_of_key hkey with hfree | ⟨f, hf⟩
      · rw [hnode] at hfree
        cases hfree
      · rw [hnode] at hf
        cases hf
        exact absurd rfl (hfile f)
  exact ⟨fun hd => hsame hd nofun, fun hl => hsame hl nofun⟩

theorem Shared.shelf (h : Shared procs t d) : Shelf procs (KeyPlace d) t := by
  refine ⟨fun ⟨model, prompt, hl⟩ => ⟨model, prompt, d, hl⟩, h.file_of_key, ?_⟩
  intro i u l halters hl
  obtain ⟨-, -, d', hd', rfl⟩ := resolve_filePath.1 hl
  have hsame := reach_keeps (h.keeps halters) (h.reach i)
  rw [hd'] at hsame
  cases hsame
  exact ⟨_, _, rfl⟩

/-- Where a directory is there, neither it nor one that it lies in is made. -/
theorem made_of_walkable {cwd : Location} {path : String} (h : Walkable t cwd path) (n : Nat) :
    madeSoFar (createDirectories t cwd (outward n path)) = t := by
  induction n generalizing path with
  | zero => exact createDirectories_of_walkable h
  | succ n ih =>
    cases hparent : Path.parent? path with
    | none =>
      rw [outward, hparent]
      rfl
    | some outer =>
      rw [outward, hparent]
      exact ih (h.parent hparent)

theorem made_of_reach (h : reach t p.cwd p.directory = .ok d) (n : Nat) :
    madeSoFar (createDirectories t p.cwd (outward n p.parent)) = t := by
  have hempty : ∀ n, madeSoFar (createDirectories t p.cwd (outward n "")) = t := by
    intro n
    cases n <;> rfl
  rw [Process.parent]
  cases hparent : Path.parent? p.path with
  | none =>
    rw [Option.getD_none]
    exact hempty n
  | some outer =>
    rw [Option.getD_some]
    rw [Process.path, filePath] at hparent
    exact made_of_walkable (walkable_of_reach (plain_fileName _ _) h hparent) n

/-- Preparing changes nothing where the directory is there. -/
theorem advance_preparing (h : reach t p.cwd p.directory = .ok d) :
    (advance p m t (.preparing e)).1 = t := by
  have hmade := made_of_reach h 0
  rw [outward] at hmade
  simp only [advance]
  split
  · split
    · next made hok =>
      rw [hok] at hmade
      exact hmade
    · next stopped hok =>
      rw [hok] at hmade
      exact hmade
  · dsimp only
    exact made_of_reach h _

section Run

variable [DecidableEq ι]

theorem Shared.directory_step (h : Shared procs t d) (hsound : Sound (KeyPlace d) t log s)
    {a : ι × Moment} (hd : (step procs s a).tree.node? l = some .directory) :
    s.tree.node? l = some .directory := by
  by_cases hphase : ∃ e, s.phase a.1 = .preparing e
  · obtain ⟨e, he⟩ := hphase
    have hreach := reach_keeps (h.keeps hsound.alters) (h.reach a.1)
    simp only [step, he] at hd
    rwa [advance_preparing hreach] at hd
  · refine directory_of_effect (effect_of_advance a.2 fun temporary htemporary => ?_)
      (fun e he => hphase ⟨e, he⟩) hd
    obtain ⟨place, f, hlent, -⟩ := hsound.lent htemporary
    exact ⟨place, f, hlent⟩

/-- No directory is made while processes share one. -/
theorem Shared.directory_run (h : Shared procs t d) (hsound : Sound (KeyPlace d) t log s)
    (σ : List (ι × Moment)) (hd : (run procs s σ).tree.node? l = some .directory) :
    s.tree.node? l = some .directory := by
  induction σ generalizing log s with
  | nil => exact hd
  | cons a σ ih => exact h.directory_step hsound (ih (hsound.of_step h.shelf a) hd)

theorem Shared.sound (h : Shared procs t d) (σ : List (ι × Moment)) :
    Sound (KeyPlace d) t (trace procs (begin procs t) σ) (run procs (begin procs t) σ) :=
  (sound_begin procs (KeyPlace d) t).of_run h.shelf σ

/-! ## What is read -/

/-- What was found lies in the place of a key, and lay there at first or was moved there before. -/
theorem Sound.found_before (h : Sound places t₀ log s) (shelf : Shelf procs places t₀)
    {σ : List (ι × Moment)} {before after : List Event} {place : Location} {content : String}
    (htrace : trace procs s σ = before ++ .found place content :: after) :
    places place ∧ Document t₀ (log ++ before) place content := by
  induction σ generalizing log s before with
  | nil => simp [trace] at htrace
  | cons a σ ih =>
    have hnext := h.of_step shelf a
    rw [trace] at htrace
    cases htold : event (procs a.1) a.2 s.tree (s.phase a.1) with
    | none =>
      rw [htold] at htrace hnext
      simp only [Option.toList, List.nil_append, List.append_nil] at htrace hnext
      exact ih hnext htrace
    | some told =>
      rw [htold] at htrace hnext
      simp only [Option.toList, List.singleton_append] at htrace hnext
      cases before with
      | nil =>
        rw [List.nil_append, List.cons.injEq] at htrace
        rw [htrace.1] at htold
        rw [List.append_nil]
        exact h.document shelf htold
      | cons first before =>
        rw [List.cons_append, List.cons.injEq] at htrace
        rw [htrace.1] at hnext
        rw [← List.singleton_append, ← List.append_assoc]
        exact ih hnext htrace.2

/-- What a process knows it has found in the place of its key. -/
theorem Shared.found_of_known (h : Shared procs t d) {σ : List (ι × Moment)} {content : String}
    (hknown : Known p (trace procs (begin procs t) σ) content) :
    .found (p.name :: d) content ∈ trace procs (begin procs t) σ := by
  obtain ⟨directory, hfound⟩ := hknown
  obtain ⟨before, after, htrace⟩ := List.append_of_mem hfound
  obtain ⟨⟨model, prompt, hplace⟩, -⟩ :=
    (sound_begin procs (KeyPlace d) t).found_before h.shelf htrace
  rwa [← (List.cons.inj hplace).2]

/-! ## Looking up comes to an end -/

/-- Where a process stands that looks up and has so many accesses before it. -/
def Seeking (left : Nat) : Phase → Prop
  | .looking => 2 ≤ left
  | .expired => 1 ≤ left
  | .valid => 1 ≤ left
  | .done (.found _) => True
  | _ => False

theorem Seeking.advance {model prompt : String} {limit : Int} {left : Nat} {phase : Phase}
    (hwork : p.work = .lookup model prompt limit) (h : Seeking (left + 1) phase) (m : Moment)
    (t : Tree) : Seeking left (advance p m t phase).2 := by
  cases phase with
  | looking =>
    have hleft : 1 ≤ left := Nat.le_of_succ_le_succ h
    simp only [Sharing.advance, hwork, Work.missed]
    split
    · exact hleft
    · exact hleft
    · trivial
  | expired =>
    simp only [Sharing.advance, hwork, Work.missed]
    split <;> trivial
  | valid =>
    simp only [Sharing.advance, hwork, Work.missed, Work.hit]
    split <;> trivial
  | done r =>
    cases r with
    | found answer => trivial
    | _ => exact h.elim
  | _ => exact h.elim

/-- A process that looks up is done after two accesses, with an answer or with none. -/
theorem found_of_accesses {model prompt : String} {limit : Int} {i : ι} {σ : List (ι × Moment)}
    (hwork : (procs i).work = .lookup model prompt limit)
    (h : Seeking (σ.countP (·.1 = i)) (s.phase i)) :
    ∃ answer, (run procs s σ).phase i = .done (.found answer) := by
  induction σ generalizing s with
  | nil =>
    cases hphase : s.phase i with
    | done r =>
      rw [hphase] at h
      cases r with
      | found answer => exact ⟨answer, hphase⟩
      | _ => exact h.elim
    | _ =>
      rw [hphase] at h
      exact absurd h (by simp [Seeking])
  | cons a σ ih =>
    refine ih ?_
    by_cases ha : a.1 = i
    · subst ha
      rw [List.countP_cons_of_pos (by simp)] at h
      rw [phase_step_self]
      exact h.advance hwork a.2 s.tree
    · rw [List.countP_cons_of_neg (by simpa using ha)] at h
      rwa [phase_step_ne procs s (Ne.symm ha)]

/-! ## All together -/

/-- Whatever the order of the accesses and whatever is refused: what a process finds was a complete
document, in its place from the beginning or moved there before; every answer was found in the place
of the process's own key or was told by the provider; looking up never fails; and in the place of a
key lies a complete document or nothing. -/
theorem shared_documents_are_whole (h : Shared procs t d)
    (hstart : ∀ model prompt f, t.node? (fileName model prompt :: d) = some (.file f) →
      (answerIn f.content).isSome) (σ : List (ι × Moment)) :
    let s := run procs (begin procs t) σ
    let log := trace procs (begin procs t) σ
    (∀ before place content after, log = before ++ .found place content :: after →
      Document t before place content) ∧
    (∀ i content, s.phase i = .done (.found (some content)) →
      .found ((procs i).name :: d) content ∈ log) ∧
    (∀ i content, s.phase i = .done (.answered (.ok content)) →
      .found ((procs i).name :: d) content ∈ log ∨
        ∃ demand c, (procs i).work = .answer demand ∧ .asked demand (.ok c) ∈ log ∧
          content = kept c) ∧
    (∀ i model prompt limit, (procs i).work = .lookup model prompt limit →
      2 ≤ σ.countP (·.1 = i) → ∃ answer, s.phase i = .done (.found answer)) ∧
    ∀ model prompt node, s.tree.node? (fileName model prompt :: d) = some node →
      ∃ f, node = .file f ∧ Whole t log (fileName model prompt :: d) f := by
  have hbegin := sound_begin procs (KeyPlace d) t
  have hsound := h.sound σ
  have hbegun : ∀ i, Accounted (procs i) [] ((begin procs t).phase i) :=
    fun i => accounted_start (procs i) []
  have haccounted := accounted_run hbegun σ
  refine ⟨?_, ?_, ?_, ?_, ?_⟩
  · intro before place content after hlog
    exact (hbegin.found_before h.shelf hlog).2
  · intro i content hdone
    exact h.found_of_known ((haccounted i).found hdone)
  · intro i content hdone
    exact ((haccounted i).answered hdone).imp_left h.found_of_known
  · intro i model prompt limit hwork haccesses
    refine found_of_accesses hwork ?_
    simpa only [begin, hwork, Work.start, Seeking] using haccesses
  · intro model prompt node hnode
    have hkey : KeyPlace d (fileName model prompt :: d) := ⟨model, prompt, rfl⟩
    cases node with
    | directory =>
      have hold := h.directory_run hbegin σ hnode
      rcases h.files model prompt with hfree | ⟨f, hfile⟩
      · rw [begin, hfree] at hold
        cases hold
      · rw [begin, hfile] at hold
        cases hold
    | link target => exact absurd hnode (h.shelf.no_link hsound.alters hkey target)
    | file f =>
      refine ⟨f, rfl, ?_⟩
      rcases hsound.known hnode with hthere | ⟨e, hmoved⟩ | ⟨j, hheld⟩
      · exact .inl ⟨hthere, hstart model prompt f hthere⟩
      · exact .inr ⟨e, hmoved, (hsound.whole hmoved).2⟩
      · exact absurd hheld (h.shelf.not_holds hkey)

/-- A process that looks an answer up, and one that stores a newer one. -/
def readerAndWriter (writes : Bool) : Process where
  cwd := []
  directory := "cache"
  work := if writes then .store "m" "p" ⟨"m", "p", "new", timestamp 5⟩ else .lookup "m" "p" 0

/-- A moment at which nothing is refused, with a provider that says nothing. -/
def quiet (now : Int) : Moment := ⟨now, ["t"], fun _ => .ok ⟨"", none⟩, none⟩

/-- The reader has its glance, the writer does all it does, and then the reader reads. -/
def glanceThenWrite : List (Bool × Moment) :=
  (false, quiet 5) :: List.replicate 4 (true, quiet 5) ++ [(false, quiet 6)]

theorem node?_settled {name : String} (h : name ≠ "p.m.dc52f28a8a.json") :
    settled.node? [name, "cache"] = none := by
  simp [settled, Tree.node?, h]

omit [DecidableEq ι] in
theorem shared_settled (h : ∀ i, (procs i).cwd = [] ∧ (procs i).directory = "cache") :
    Shared procs settled ["cache"] := by
  constructor
  · intro i
    rw [(h i).1, (h i).2]
    decide +kernel
  · intro model prompt
    by_cases hname : fileName model prompt = "p.m.dc52f28a8a.json"
    · rw [hname]
      exact .inr ⟨_, rfl⟩
    · exact .inl (node?_settled hname)

/-- A reader that had its glance at an old document finds the new one that was moved there since. -/
theorem a_reader_finds_the_new_document :
    (run readerAndWriter (begin readerAndWriter settled) glanceThenWrite).phase false =
        .done (.found (some "new")) ∧
      .found [fileName "m" "p", "cache"] "new" ∈
        trace readerAndWriter (begin readerAndWriter settled) glanceThenWrite := by
  have hstart : ∀ model prompt f, settled.node? (fileName model prompt :: ["cache"]) =
      some (.file f) → (answerIn f.content).isSome := by
    intro model prompt f hfile
    by_cases hname : fileName model prompt = "p.m.dc52f28a8a.json"
    · rw [hname] at hfile
      cases hfile
      decide +kernel
    · rw [node?_settled hname] at hfile
      cases hfile
  have hphase : (run readerAndWriter (begin readerAndWriter settled) glanceThenWrite).phase false =
      .done (.found (some "new")) := by decide +kernel
  have hshared : Shared readerAndWriter settled ["cache"] := shared_settled fun _ => ⟨rfl, rfl⟩
  have hwhole := shared_documents_are_whole hshared hstart glanceThenWrite
  exact ⟨hphase, hwhole.2.1 false "new" hphase⟩

end Run

end PromptRunner.Sharing
