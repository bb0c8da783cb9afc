import PromptRunner.Proofs.Cache.Document
import PromptRunner.Proofs.Cache.Lookup
import PromptRunner.Proofs.Sharing.Invariant
import PromptRunner.Proofs.Text.Bytes

/-!
# Where answers come from

What a process answers it has found in a document or was told by the provider, and what it stores it
was told (`Accounted`). What it finds in a document lay there from the beginning or was moved there
whole (`Document`). Both are shown for one access and then for any schedule, along what is told of
it.
-/

namespace PromptRunner.Sharing

open PromptRunner.Files PromptRunner.Cache PromptRunner.Generation PromptRunner.Provider
open PromptRunner.Text

/-- An entry for a demand, with what the provider said to it. -/
def Granted (d : Demand) (log : List Event) (e : Entry) : Prop :=
  ∃ c now, .asked d (.ok c) ∈ log ∧ e = ⟨d.model, d.prompt, kept c, timestamp now⟩

/-- An answer that was found under the name of the key of a process. -/
def Known (p : Process) (log : List Event) (content : String) : Prop :=
  ∃ directory, .found (p.name :: directory) content ∈ log

/-- What a process stores and answers was told before. -/
structure Accounted (p : Process) (log : List Event) (phase : Phase) : Prop where
  entry : ∀ {d e}, p.work = .answer d → phase.carried? = some e → Granted d log e
  found : ∀ {content}, phase = .done (.found (some content)) → Known p log content
  answered : ∀ {content}, phase = .done (.answered (.ok content)) → Known p log content ∨
    ∃ d c, p.work = .answer d ∧ .asked d (.ok c) ∈ log ∧ content = kept c

/-- A document with some content, which lay somewhere at first or was moved there complete. -/
def Document (t₀ : Tree) (log : List Event) (place : Location) (content : String) : Prop :=
  (∃ f, t₀.node? place = some (.file f) ∧ answerIn f.content = some content) ∨
    ∃ e f, .moved place e f ∈ log ∧ f.content = bytesOf e.text ∧ content = e.content

variable {p : Process} {m : Moment} {t : Tree} {phase : Phase} {log log' : List Event} {d : Demand}
  {e : Entry} {temporary content : String} {place : Location}

/-! ## What a process knows -/

theorem Granted.mono (h : Granted d log e) (hsub : log ⊆ log') : Granted d log' e := by
  obtain ⟨c, now, hasked, he⟩ := h
  exact ⟨c, now, hsub hasked, he⟩

theorem Known.mono (h : Known p log content) (hsub : log ⊆ log') : Known p log' content := by
  obtain ⟨directory, hfound⟩ := h
  exact ⟨directory, hsub hfound⟩

theorem Accounted.mono (h : Accounted p log phase) (hsub : log ⊆ log') :
    Accounted p log' phase := by
  refine ⟨fun hwork he => (h.entry hwork he).mono hsub, fun hdone => (h.found hdone).mono hsub, ?_⟩
  intro content hdone
  rcases h.answered hdone with hknown | ⟨d, c, hwork, hasked, hkept⟩
  · exact .inl (hknown.mono hsub)
  · exact .inr ⟨d, c, hwork, hsub hasked, hkept⟩

/-- A process that is not done has its entry to account for. -/
theorem accounted_of_entry (hrank : 0 < phase.rank)
    (hentry : ∀ d e, p.work = .answer d → phase.carried? = some e → Granted d log e) :
    Accounted p log phase := by
  have hdone : ∀ r, phase ≠ .done r := by
    rintro r rfl
    exact absurd hrank (Nat.lt_irrefl 0)
  exact ⟨hentry _ _, fun h => absurd h (hdone _), fun h => absurd h (hdone _)⟩

/-- Nor has it that if it carries none. -/
theorem accounted_of_none (hrank : 0 < phase.rank) (hnone : phase.carried? = none) :
    Accounted p log phase := by
  refine accounted_of_entry hrank fun d e _ he => ?_
  rw [hnone] at he
  cases he

theorem accounted_nothing : Accounted p log (.done (.found none)) := ⟨nofun, nofun, nofun⟩

theorem accounted_failed (f : Failure) : Accounted p log (.done (.answered (.error f))) :=
  ⟨nofun, nofun, nofun⟩

/-- What the provider said is accounted for. -/
theorem accounted_told {c : Completion} (hwork : p.work = .answer d)
    (hasked : .asked d (.ok c) ∈ log) : Accounted p log (.done (.answered (.ok (kept c)))) := by
  refine ⟨nofun, nofun, fun hdone => ?_⟩
  cases hdone
  exact .inr ⟨d, c, hwork, hasked, rfl⟩

theorem accounted_start (p : Process) (log : List Event) : Accounted p log p.work.start := by
  cases hp : p.work with
  | lookup model prompt limit => exact accounted_of_none (Nat.succ_pos 7) rfl
  | store model prompt e =>
    refine accounted_of_entry (Nat.succ_pos 4) fun d e hwork => ?_
    rw [hp] at hwork
    cases hwork
  | answer d =>
    simp only [Work.start]
    split
    · exact accounted_of_none (Nat.succ_pos 7) rfl
    · exact accounted_of_none (Nat.succ_pos 5) rfl

theorem accounted_missed (p : Process) (log : List Event) : Accounted p log p.work.missed := by
  cases p.work with
  | answer d => exact accounted_of_none (Nat.succ_pos 5) rfl
  | _ => exact accounted_nothing

theorem accounted_hit (h : Known p log content) : Accounted p log (p.work.hit content) := by
  cases p.work with
  | answer d =>
    refine ⟨nofun, nofun, fun hdone => ?_⟩
    cases hdone
    exact .inl h
  | _ =>
    refine ⟨nofun, fun hdone => ?_, nofun⟩
    cases hdone
    exact h

theorem accounted_closed (outcome : Except IoError Unit)
    (h : ∀ d, p.work = .answer d → Granted d log e) :
    Accounted p log (p.work.closed e outcome) := by
  cases hp : p.work with
  | answer d =>
    obtain ⟨c, now, hasked, rfl⟩ := h d hp
    exact accounted_told hp hasked
  | _ => exact ⟨nofun, nofun, nofun⟩

/-! ## One access -/

/-- An answer is read from a file. -/
theorem file_of_readAnswer {cwd : Location} {path : String}
    (h : readAnswer t cwd path = some content) :
    ∃ loc f, resolve t cwd true path = .ok loc ∧ t.node? loc = some (.file f) ∧
      answerIn f.content = some content := by
  cases hbytes : readBytes t cwd path with
  | error cause =>
    simp only [readAnswer, readText, hbytes] at h
    cases h
  | ok bytes =>
    obtain ⟨loc, f, hloc, hfile, rfl⟩ := readBytes_iff.1 hbytes
    have hat : fileAt t cwd path = some f := by
      rw [fileAt, stat_iff.2 ⟨hloc, hfile⟩]
    rw [readAnswer_eq hat] at h
    exact ⟨loc, f, hloc, hfile, h⟩

theorem accounted_valid :
    Accounted p (log ++ (event p m t .valid).toList) (advance p m t .valid).2 := by
  simp only [advance]
  split
  · next content hrefusal hread =>
    obtain ⟨loc, f, hloc, -⟩ := file_of_readAnswer hread
    obtain ⟨place, hplace⟩ := resolve_false hloc
    obtain ⟨-, -, directory, -, rfl⟩ := resolve_filePath.1 hplace
    refine accounted_hit ⟨directory, List.mem_append_right _ ?_⟩
    simp [event, hrefusal, hplace, hread, Process.name]
  · exact accounted_missed p _

theorem accounted_asking :
    Accounted p (log ++ (event p m t .asking).toList) (advance p m t .asking).2 := by
  simp only [advance, event]
  cases hp : p.work with
  | answer d =>
    have hasked : .asked d (m.ask (query d.model d.prompt)) ∈
        log ++ [.asked d (m.ask (query d.model d.prompt))] :=
      List.mem_append_right _ List.mem_cons_self
    simp only [Work.replied, Option.toList]
    cases hask : m.ask (query d.model d.prompt) with
    | error f => exact accounted_failed _
    | ok c =>
      rw [hask] at hasked
      simp only
      split
      · refine accounted_of_entry (Nat.succ_pos 4) fun d' e hwork he => ?_
        rw [hp] at hwork
        cases hwork
        cases he
        exact ⟨c, m.now, hasked, rfl⟩
      · exact accounted_told hp hasked
  | _ => exact accounted_nothing

/-- What a process does with its entry until it has stored it or given up. -/
theorem entry_after (he : phase.carried? = some e) :
    (∃ outcome, (advance p m t phase).2 = p.work.closed e outcome) ∨
      0 < (advance p m t phase).2.rank ∧ (advance p m t phase).2.carried? = some e := by
  cases phase with
  | preparing e' =>
    cases he
    simp only [advance]
    split
    · split
      · exact .inr ⟨Nat.succ_pos 3, rfl⟩
      · exact .inl ⟨_, rfl⟩
    · exact .inl ⟨_, rfl⟩
  | creating e' =>
    cases he
    simp only [advance]
    split
    · split
      · exact .inr ⟨Nat.succ_pos 2, rfl⟩
      · exact .inl ⟨_, rfl⟩
    · exact .inl ⟨_, rfl⟩
  | filling e' temporary =>
    cases he
    simp only [advance]
    split
    · split
      · exact .inr ⟨Nat.succ_pos 1, rfl⟩
      · exact .inr ⟨Nat.succ_pos 0, rfl⟩
    · split <;> exact .inr ⟨Nat.succ_pos 0, rfl⟩
  | moving e' temporary =>
    cases he
    simp only [advance]
    split
    · split
      · exact .inl ⟨_, rfl⟩
      · exact .inr ⟨Nat.succ_pos 0, rfl⟩
    · exact .inr ⟨Nat.succ_pos 0, rfl⟩
  | dropping e' temporary cause =>
    cases he
    exact .inl ⟨_, rfl⟩
  | _ => cases he

/-- An access keeps a process accountable. -/
theorem Accounted.advance (h : Accounted p log phase) (m : Moment) (t : Tree) :
    Accounted p (log ++ (event p m t phase).toList) (advance p m t phase).2 := by
  have hsub : log ⊆ log ++ (event p m t phase).toList := List.subset_append_left _ _
  cases he : phase.carried? with
  | some e =>
    have hgranted : ∀ d, p.work = .answer d →
        Granted d (log ++ (event p m t phase).toList) e :=
      fun d hwork => (h.entry hwork he).mono hsub
    rcases entry_after (p := p) (m := m) (t := t) he with ⟨outcome, hclosed⟩ | ⟨hrank, hsame⟩
    · rw [hclosed]
      exact accounted_closed outcome hgranted
    · refine accounted_of_entry hrank fun d e' hwork he' => ?_
      rw [hsame] at he'
      cases he'
      exact hgranted d hwork
  | none =>
    cases phase with
    | looking =>
      simp only [Sharing.advance]
      split
      · exact accounted_of_none (Nat.succ_pos 6) rfl
      · exact accounted_of_none (Nat.succ_pos 6) rfl
      · exact accounted_missed p _
    | expired =>
      simp only [Sharing.advance]
      split <;> exact accounted_missed p _
    | valid => exact accounted_valid
    | asking => exact accounted_asking
    | done r => exact h.mono hsub
    | _ => cases he

/-! ## Any schedule -/

section Run

variable {ι : Type} {procs : ι → Process} {places : Location → Prop} {t₀ : Tree} {s : System ι}

/-- What a process finds lies in the place of a key, and lay there at first or was moved there
complete. -/
theorem Sound.document (h : Sound places t₀ log s) (shelf : Shelf procs places t₀) {i : ι}
    (hfound : event (procs i) m s.tree (s.phase i) = some (.found place content)) :
    places place ∧ Document t₀ log place content := by
  obtain ⟨-, hplace, hread⟩ := meaning_of_event hfound
  have hkey := shelf.leads h.alters hplace
  obtain ⟨loc, f, hloc, hfile, hanswer⟩ := file_of_readAnswer hread
  have hsame := resolve_true (shelf.no_link h.alters hkey) hplace
  rw [hloc] at hsame
  cases hsame
  refine ⟨hkey, ?_⟩
  rcases h.known hfile with hthere | ⟨e, hmoved⟩ | ⟨j, hheld⟩
  · exact .inl ⟨f, hthere, hanswer⟩
  · obtain ⟨-, hcontent⟩ := h.whole hmoved
    refine .inr ⟨e, f, hmoved, hcontent, ?_⟩
    simp only [answerIn, hcontent, stringOf?_bytesOf] at hanswer
    split at hanswer
    · next w hparse =>
      cases hanswer
      exact (Entry.sameAnswer_of_parse_text hparse).content
    · cases hanswer
  · exact absurd hheld (shelf.not_holds hkey)

variable [DecidableEq ι]

/-- A schedule keeps every process accountable. -/
theorem accounted_run (h : ∀ i, Accounted (procs i) log (s.phase i)) (σ : List (ι × Moment))
    (i : ι) : Accounted (procs i) (log ++ trace procs s σ) ((run procs s σ).phase i) := by
  induction σ generalizing log s with
  | nil =>
    rw [trace, List.append_nil]
    exact h i
  | cons a σ ih =>
    rw [trace, ← List.append_assoc]
    refine ih fun j => ?_
    by_cases hj : j = a.1
    · subst hj
      rw [phase_step_self]
      exact (h a.1).advance a.2 s.tree
    · rw [phase_step_ne procs s hj]
      exact (h j).mono (List.subset_append_left _ _)

end Run

end PromptRunner.Sharing
