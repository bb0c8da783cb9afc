import PromptRunner.Proofs.Sharing.Access

/-!
# What stays true while processes share a cache

Every file is one that was there, one that some process has under a temporary name, or a document
that was moved to the place of a key when it was complete; and no two processes have the same
temporary file, since each was made where nothing was. `Sound` is that invariant. One access keeps
it (`Sound.of_step`), and so does any schedule (`Sound.of_run`).

What lies in the place of a key is then a matter of history: it is what was moved there last, or, if
nothing was, what lay there before (`file_after`).
-/

namespace PromptRunner.Sharing

open PromptRunner.Files PromptRunner.Cache PromptRunner.Generation PromptRunner.Text

/-- What is known of the files after some accesses, of which `log` tells. -/
structure Sound {ι : Type} (places : Location → Prop) (t₀ : Tree) (log : List Event)
    (s : System ι) : Prop where
  alters : Alters places t₀ s.tree
  lent : ∀ {i temporary}, (s.phase i).temporary? = some temporary →
    ∃ place f, Lent s.tree temporary place f ∧ t₀.node? place = none
  apart : ∀ {i j place f g}, Holds s.tree (s.phase i) place f →
    Holds s.tree (s.phase j) place g → i = j
  ready : ∀ {i e temporary place f}, s.phase i = .moving e temporary →
    Lent s.tree temporary place f → f.content = bytesOf e.text
  known : ∀ {l f}, s.tree.node? l = some (.file f) →
    t₀.node? l = some (.file f) ∨ (∃ e, .moved l e f ∈ log) ∨ ∃ i, Holds s.tree (s.phase i) l f
  whole : ∀ {l e f}, .moved l e f ∈ log → places l ∧ f.content = bytesOf e.text

variable {ι : Type} {procs : ι → Process} {places : Location → Prop} {t₀ t : Tree}
  {log : List Event} {s : System ι} {l place : Location} {f g : RegularFile}

/-- Where no process has a temporary file, all is known that is known of the files. -/
theorem sound_of_rest (halters : Alters places t₀ s.tree)
    (hrest : ∀ i, (s.phase i).temporary? = none)
    (hknown : ∀ {l f}, s.tree.node? l = some (.file f) →
      t₀.node? l = some (.file f) ∨ ∃ e, .moved l e f ∈ log)
    (hwhole : ∀ {l e f}, .moved l e f ∈ log → places l ∧ f.content = bytesOf e.text) :
    Sound places t₀ log s := by
  refine ⟨halters, ?_, ?_, ?_, fun hfile => (hknown hfile).imp_right .inl, hwhole⟩
  · intro i temporary htemporary
    rw [hrest i] at htemporary
    cases htemporary
  · intro i j place f g hi
    exact absurd hi (not_holds (hrest i) place f)
  · intro i e temporary _ _ hmoving
    exact absurd hmoving (not_moving (hrest i) e temporary)

theorem sound_begin (procs : ι → Process) (places : Location → Prop) (t : Tree) :
    Sound places t [] (begin procs t) :=
  sound_of_rest (.refl places t) (fun _ => temporary?_start _) .inl nofun

theorem Sound.known_of_rest (h : Sound places t₀ log s)
    (hrest : ∀ i, (s.phase i).temporary? = none) (hfile : s.tree.node? l = some (.file f)) :
    t₀.node? l = some (.file f) ∨ ∃ e, .moved l e f ∈ log := by
  rcases h.known hfile with hthere | hmoved | ⟨i, hheld⟩
  · exact .inl hthere
  · exact .inr hmoved
  · exact absurd hheld (not_holds (hrest i) l f)

/-- Other processes may begin where all have ended. -/
theorem Sound.begin_again (h : Sound places t₀ log s) (hrest : ∀ i, (s.phase i).temporary? = none)
    (procs : ι → Process) : Sound places t₀ log (begin procs s.tree) :=
  sound_of_rest h.alters (fun _ => temporary?_start _) (h.known_of_rest hrest) h.whole

/-! ## One access -/

section Step

variable [DecidableEq ι] {a : ι × Moment}

/-- The access of a process in a sound state. -/
theorem Sound.access (h : Sound places t₀ log s) (shelf : Shelf procs places t₀)
    (a : ι × Moment) :
    Access places t₀ s.tree (s.phase a.1) (step procs s a).tree ((step procs s a).phase a.1)
      (event (procs a.1) a.2 s.tree (s.phase a.1)) := by
  rw [phase_step_self]
  refine access_of_effect shelf h.alters h.lent h.ready (effect_of_advance a.2 ?_)
  intro temporary htemporary
  obtain ⟨place, f, hlent, -⟩ := h.lent htemporary
  exact ⟨place, f, hlent⟩

/-- What another process has under a temporary name stays as it is. -/
theorem Sound.holds_after (h : Sound places t₀ log s) (shelf : Shelf procs places t₀) {j : ι}
    (hj : j ≠ a.1) (hholds : Holds s.tree (s.phase j) place f) :
    Holds (step procs s a).tree ((step procs s a).phase j) place f := by
  have haccess := h.access shelf a
  rw [phase_step_ne procs s hj]
  obtain ⟨temporary, htemporary, hlent⟩ := id hholds
  refine ⟨temporary, htemporary, hlent.of_keeps haccess.keeps ?_⟩
  exact haccess.others hlent.file (shelf.not_lent hlent) fun g hg => hj (h.apart hholds hg)

/-- What another process has afterwards it had before. -/
theorem Sound.holds_before (h : Sound places t₀ log s) (shelf : Shelf procs places t₀) {j : ι}
    (hj : j ≠ a.1) (hholds : Holds (step procs s a).tree ((step procs s a).phase j) place f) :
    Holds s.tree (s.phase j) place f := by
  rw [phase_step_ne procs s hj] at hholds
  obtain ⟨temporary, htemporary, hlent⟩ := hholds
  obtain ⟨place', f', hlent', -⟩ := h.lent htemporary
  have hbefore : Holds s.tree (s.phase j) place' f' := ⟨temporary, htemporary, hlent'⟩
  have hafter := (h.holds_after (a := a) shelf hj hbefore).file
  have hplace := hlent'.place_eq (h.access shelf a).keeps hlent
  rw [← hplace, hlent.file] at hafter
  cases hafter
  rwa [hplace]

theorem Sound.step_lent (h : Sound places t₀ log s) (shelf : Shelf procs places t₀) {i : ι}
    {temporary : String} (htemporary : ((step procs s a).phase i).temporary? = some temporary) :
    ∃ place f, Lent (step procs s a).tree temporary place f ∧ t₀.node? place = none := by
  by_cases hi : i = a.1
  · subst hi
    obtain ⟨place, f, hlent, hfree, -⟩ := (h.access shelf a).lent htemporary
    exact ⟨place, f, hlent, hfree⟩
  · rw [phase_step_ne procs s hi] at htemporary
    obtain ⟨place, f, hlent, hfree⟩ := h.lent htemporary
    have hholds := h.holds_after (a := a) shelf hi ⟨temporary, htemporary, hlent⟩
    exact ⟨place, f, hlent.of_keeps (h.access shelf a).keeps hholds.file, hfree⟩

/-- A temporary file of the process is new to the others. -/
theorem Sound.apart_self (h : Sound places t₀ log s) (shelf : Shelf procs places t₀) {j : ι}
    (hself : Holds (step procs s a).tree ((step procs s a).phase a.1) place f)
    (hother : Holds (step procs s a).tree ((step procs s a).phase j) place g) : a.1 = j := by
  by_contra hj
  have hbefore := h.holds_before shelf (Ne.symm hj) hother
  obtain ⟨temporary, htemporary, hlent⟩ := hself
  obtain ⟨place', f', hlent', -, hplace'⟩ := (h.access shelf a).lent htemporary
  have hplace := hlent'.place_eq (.refl _) hlent
  subst hplace
  rcases hplace' with hfree | ⟨g', hg'⟩
  · rw [hbefore.file] at hfree
    cases hfree
  · exact hj (h.apart hg' hbefore)

theorem Sound.step_apart (h : Sound places t₀ log s) (shelf : Shelf procs places t₀) {i j : ι}
    (hi : Holds (step procs s a).tree ((step procs s a).phase i) place f)
    (hj : Holds (step procs s a).tree ((step procs s a).phase j) place g) : i = j := by
  by_cases hself : i = a.1
  · subst hself
    exact h.apart_self shelf hi hj
  · by_cases hself' : j = a.1
    · subst hself'
      exact (h.apart_self shelf hj hi).symm
    · exact h.apart (h.holds_before shelf hself hi) (h.holds_before shelf hself' hj)

theorem Sound.step_ready (h : Sound places t₀ log s) (shelf : Shelf procs places t₀) {i : ι}
    {e : Entry} {temporary : String} (hmoving : (step procs s a).phase i = .moving e temporary)
    (hlent : Lent (step procs s a).tree temporary place f) : f.content = bytesOf e.text := by
  by_cases hi : i = a.1
  · subst hi
    exact (h.access shelf a).ready hmoving hlent
  · have hholds : Holds (step procs s a).tree ((step procs s a).phase i) place f :=
      ⟨temporary, by rw [hmoving]; rfl, hlent⟩
    obtain ⟨temporary', htemporary, hlent'⟩ := h.holds_before shelf hi hholds
    rw [phase_step_ne procs s hi] at hmoving
    rw [hmoving] at htemporary
    cases htemporary
    exact h.ready hmoving hlent'

theorem Sound.step_known (h : Sound places t₀ log s) (shelf : Shelf procs places t₀)
    (hfile : (step procs s a).tree.node? l = some (.file f)) :
    t₀.node? l = some (.file f) ∨
      (∃ e, .moved l e f ∈ log ++ (event (procs a.1) a.2 s.tree (s.phase a.1)).toList) ∨
      ∃ i, Holds (step procs s a).tree ((step procs s a).phase i) l f := by
  rcases (h.access shelf a).files hfile with hheld | ⟨e, hmoved⟩ | ⟨hold, hnot⟩
  · exact .inr (.inr ⟨a.1, hheld⟩)
  · exact .inr (.inl ⟨e, List.mem_append_right _ (by simp [hmoved])⟩)
  · rcases h.known hold with hthere | ⟨e, hmoved⟩ | ⟨j, hheld⟩
    · exact .inl hthere
    · exact .inr (.inl ⟨e, List.mem_append_left _ hmoved⟩)
    · have hj : j ≠ a.1 := by
        rintro rfl
        exact hnot f hheld
      exact .inr (.inr ⟨j, h.holds_after shelf hj hheld⟩)

/-- One access keeps what is known. -/
theorem Sound.of_step (h : Sound places t₀ log s) (shelf : Shelf procs places t₀)
    (a : ι × Moment) :
    Sound places t₀ (log ++ (event (procs a.1) a.2 s.tree (s.phase a.1)).toList)
      (step procs s a) := by
  refine ⟨(h.access shelf a).alters, h.step_lent shelf, h.step_apart shelf, h.step_ready shelf,
    h.step_known shelf, ?_⟩
  intro l e f hmoved
  rcases List.mem_append.1 hmoved with hold | hnew
  · exact h.whole hold
  · obtain ⟨hkey, hcontent, -⟩ := (h.access shelf a).moved (Option.mem_toList.1 hnew)
    exact ⟨hkey, hcontent⟩

end Step

/-! ## Any schedule -/

section Run

variable [DecidableEq ι]

/-- A schedule keeps what is known. -/
theorem Sound.of_run (h : Sound places t₀ log s) (shelf : Shelf procs places t₀)
    (σ : List (ι × Moment)) : Sound places t₀ (log ++ trace procs s σ) (run procs s σ) := by
  induction σ generalizing log s with
  | nil => rwa [trace, List.append_nil]
  | cons a σ ih =>
    rw [trace, ← List.append_assoc]
    exact ih (h.of_step shelf a)

/-- A schedule closes no way. -/
theorem Sound.keeps_run (h : Sound places t₀ log s) (shelf : Shelf procs places t₀)
    (σ : List (ι × Moment)) : Keeps s.tree (run procs s σ).tree := by
  induction σ generalizing log s with
  | nil => exact .refl s.tree
  | cons a σ ih => exact (h.access shelf a).keeps.trans (ih (h.of_step shelf a))

/-- The file that was moved to a place last. -/
def lastMoved (place : Location) : List Event → Option RegularFile
  | [] => none
  | told :: log =>
    match lastMoved place log, told with
    | some f, _ => some f
    | none, .moved l _ f => if l = place then some f else none
    | none, _ => none

theorem lastMoved_append (place : Location) (log later : List Event) :
    lastMoved place (log ++ later) = (lastMoved place later).or (lastMoved place log) := by
  induction log with
  | nil => exact (Option.or_none).symm
  | cons told log ih =>
    simp only [List.cons_append, lastMoved, ih]
    cases lastMoved place later <;> rfl

theorem lastMoved_eq_none :
    lastMoved place log = none ↔ ∀ e f, .moved place e f ∉ log := by
  induction log with
  | nil => simp [lastMoved]
  | cons told log ih =>
    constructor
    · intro hnone e f hmem
      simp only [lastMoved] at hnone
      cases hlog : lastMoved place log with
      | some g =>
        rw [hlog] at hnone
        cases hnone
      | none =>
        rw [hlog] at hnone
        rcases List.mem_cons.1 hmem with rfl | hmem
        · simp at hnone
        · exact ih.1 hlog e f hmem
    · intro hnot
      have hlog := ih.2 fun e f hmem => hnot e f (List.mem_cons_of_mem _ hmem)
      simp only [lastMoved, hlog]
      split
      · next heq => cases heq
      · next l e f heq =>
        refine if_neg ?_
        rintro rfl
        exact hnot e f List.mem_cons_self
      · rfl

/-- What lies in the place of a key was moved there last, or it lay there and nothing was moved
there. -/
theorem Sound.file_after (h : Sound places t₀ log s) (shelf : Shelf procs places t₀)
    (hl : places l) (σ : List (ι × Moment))
    (hfile : (run procs s σ).tree.node? l = some (.file g)) :
    lastMoved l (trace procs s σ) = some g ∨
      lastMoved l (trace procs s σ) = none ∧ s.tree.node? l = some (.file g) := by
  induction σ generalizing log s with
  | nil => exact .inr ⟨rfl, hfile⟩
  | cons a σ ih =>
    rw [trace, lastMoved_append]
    rcases ih (h.of_step shelf a) hfile with hlater | ⟨hlater, hthere⟩
    · rw [hlater]
      exact .inl rfl
    · rw [hlater, Option.none_or]
      have haccess := h.access shelf a
      -- if something was moved there by this access, it is what lies there now
      have hnow : ∀ e f, event (procs a.1) a.2 s.tree (s.phase a.1) = some (.moved l e f) →
          f = g := by
        intro e f hmoved
        have hput := (haccess.moved hmoved).2.2
        rw [hthere] at hput
        cases hput
        rfl
      by_cases hmoved : ∃ e f, event (procs a.1) a.2 s.tree (s.phase a.1) = some (.moved l e f)
      · obtain ⟨e, f, hmoved⟩ := hmoved
        rw [hnow e f hmoved] at hmoved
        rw [hmoved]
        exact .inl (by simp [lastMoved])
      · refine .inr ⟨lastMoved_eq_none.2 fun e f heq => hmoved ⟨e, f, Option.mem_toList.1 heq⟩, ?_⟩
        rcases haccess.files hthere with hheld | ⟨e, heq⟩ | ⟨hold, -⟩
        · exact absurd hheld (shelf.not_holds hl)
        · exact absurd ⟨e, g, heq⟩ hmoved
        · exact hold

end Run

end PromptRunner.Sharing
