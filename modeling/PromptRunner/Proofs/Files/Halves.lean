import PromptRunner.Proofs.Files.Following

/-!
# A way in two halves

A way that goes on behind some place can be followed in two halves: up to the place, and from there.
Which links are replaced does not change by that, only how many of them each half may lead through:
the system counts them anew when it starts on the second half. So the halves of a way that is
followed can be followed (`followSteps_halves`), and the other way round the whole can be, unless it
leads through too many links (`followSteps_whole`).
-/

namespace PromptRunner.Files

open PromptRunner.Text

variable {t : Tree} {follow : Bool} {links more : Nat} {loc d l : Location} {a rest s : List Step}
  {step : Step}
variable {through through' : Location → List Step → Except Errno Location}

/-! ## More and fewer links -/

/-- What holds of the place that a way leads to, and of everything that its links lead to in its
stead, holds of where the way leads with these links. -/
theorem followWith_through {Q : Except Errno Location → Prop} (hend : Q (.ok l))
    (hthrough : ∀ loc s, through loc s = .ok l → Q (through' loc s))
    (h : followWith t follow through loc s = .ok l) : Q (followWith t follow through' loc s) := by
  induction s generalizing loc with
  | nil =>
    rw [followWith] at h ⊢
    rwa [h]
  | cons step rest ih =>
    have hd := directory_of_followWith h
    cases step with
    | stay =>
      rw [followWith_stay hd] at h ⊢
      exact ih h
    | up =>
      rw [followWith_up hd] at h ⊢
      exact ih h
    | into name =>
      have hlength := length_of_followWith h
      rw [followWith_into hd hlength] at h ⊢
      split at h
      · split at h
        · next hlast =>
          rw [if_pos hlast]
          rwa [h]
        · next hlast =>
          rw [if_neg hlast]
          exact hthrough _ _ h
      · exact ih h
      · rwa [h]

theorem followSteps_more (h : followSteps t follow links loc s = .ok l) (more : Nat) :
    followSteps t follow (links + more) loc s = .ok l := by
  let Q : Except Errno Location → Prop := fun x => x = .ok l
  induction links generalizing loc s with
  | zero =>
    rw [Nat.zero_add]
    cases more with
    | zero => exact h
    | succ more => exact followWith_through (Q := Q) rfl (fun _ _ hgo => by cases hgo) h
  | succ links ih =>
    rw [Nat.succ_add]
    exact followWith_through (Q := Q) rfl (fun _ _ => ih) h

/-- A way that can be followed is followed to the same place with fewer links, or there are too
few. -/
theorem followSteps_fewer (h : followSteps t follow (links + more) loc s = .ok l) :
    followSteps t follow links loc s = .ok l ∨
      followSteps t follow links loc s = .error .tooManyLinks := by
  let Q : Except Errno Location → Prop := fun x => x = .ok l ∨ x = .error .tooManyLinks
  induction links generalizing loc s with
  | zero =>
    cases more with
    | zero => exact .inl h
    | succ more => exact followWith_through (Q := Q) (.inl rfl) (fun _ _ _ => .inr rfl) h
  | succ links ih =>
    rw [Nat.succ_add] at h
    exact followWith_through (Q := Q) (.inl rfl) (fun _ _ => ih) h

/-! ## From the whole to its halves -/

/-- A way leads through a directory in between, of which everything holds that holds of the places
from which the rest of it can be followed. -/
theorem followWith_halves {P : Location → Prop}
    (hbehind : ∀ d, followWith t follow through d (step :: rest) = .ok l → P d)
    (hthrough : ∀ {loc s}, through loc (s ++ step :: rest) = .ok l →
      ∃ d, through' loc s = .ok d ∧ P d)
    (h : followWith t follow through loc (a ++ step :: rest) = .ok l) :
    ∃ d, followWith t true through' loc a = .ok d ∧ P d := by
  induction a generalizing loc with
  | nil => exact ⟨loc, rfl, hbehind loc h⟩
  | cons first a ih =>
    rw [List.cons_append] at h
    have hd := directory_of_followWith h
    cases first with
    | stay =>
      rw [followWith_stay hd] at h ⊢
      exact ih h
    | up =>
      rw [followWith_up hd] at h ⊢
      exact ih h
    | into name =>
      obtain ⟨-, hlength, ⟨target, hnode, hgo⟩ | ⟨hnode, hgo⟩⟩ :=
        (followWith_into_iff (by simp)).1 h
      · rw [← List.append_assoc] at hgo
        simp only [followWith_into hd hlength, hnode, Bool.not_true, Bool.and_false,
          Bool.false_eq_true, if_false]
        exact hthrough hgo
      · simp only [followWith_into hd hlength, hnode]
        exact ih hgo

/-- The second half of a way has the links that the first one left. -/
theorem followSteps_halves (h : followSteps t follow links loc (a ++ step :: rest) = .ok l) :
    ∃ d, followSteps t true links loc a = .ok d ∧
      ∃ left ≤ links, followSteps t follow left d (step :: rest) = .ok l := by
  induction links generalizing loc a with
  | zero =>
    exact followWith_halves (fun d hgo => ⟨0, Nat.le_refl 0, hgo⟩) (fun hgo => by cases hgo) h
  | succ links ih =>
    refine followWith_halves (fun d hgo => ⟨links + 1, Nat.le_refl _, hgo⟩) (fun hgo => ?_) h
    obtain ⟨d, hd, left, hleft, hrest⟩ := ih hgo
    exact ⟨d, hd, left, Nat.le_succ_of_le hleft, hrest⟩

theorem directory_of_followSteps (h : followSteps t follow links loc (step :: rest) = .ok l) :
    t.node? loc = some .directory := by
  cases links <;> exact directory_of_followWith h

/-- A way leads through directories. -/
theorem followSteps_beginning (h : followSteps t follow links loc (a ++ step :: rest) = .ok l) :
    ∃ d, followSteps t true links loc a = .ok d ∧ t.node? d = some .directory := by
  obtain ⟨d, hd, left, -, hrest⟩ := followSteps_halves h
  exact ⟨d, hd, directory_of_followSteps hrest⟩

/-! ## From the halves to the whole -/

theorem followWith_whole (hd : followWith t follow through' d (step :: rest) = .ok l)
    (hthrough : ∀ {loc s}, through loc s = .ok d → through' loc (s ++ step :: rest) = .ok l)
    (h : followWith t true through loc a = .ok d) :
    followWith t follow through' loc (a ++ step :: rest) = .ok l := by
  induction a generalizing loc with
  | nil =>
    rw [followWith] at h
    cases h
    exact hd
  | cons first a ih =>
    have hloc := directory_of_followWith h
    rw [List.cons_append]
    cases first with
    | stay =>
      rw [followWith_stay hloc] at h ⊢
      exact ih h
    | up =>
      rw [followWith_up hloc] at h ⊢
      exact ih h
    | into name =>
      have hlength := length_of_followWith h
      rw [followWith_into hloc hlength] at h
      refine (followWith_into_iff (by simp)).2 ⟨hloc, hlength, ?_⟩
      split at h
      · next target hnode =>
        rw [Bool.not_true, Bool.and_false, if_neg Bool.false_ne_true] at h
        refine .inl ⟨target, hnode, ?_⟩
        rw [← List.append_assoc]
        exact hthrough h
      · next node hlink hnode =>
        have hgo := ih h
        refine .inr ⟨?_, hgo⟩
        obtain ⟨next, behind, hnext⟩ := List.exists_cons_of_ne_nil
          (show a ++ step :: rest ≠ [] by simp)
        rw [hnext] at hgo
        exact directory_of_followWith hgo
      -- a name that is free leads nowhere, and so it is no directory in between
      · next hnode =>
        split at h
        · cases h
          rw [directory_of_followWith hd] at hnode
          cases hnode
        · cases h

/-- The whole of two halves leads through the links of both. -/
theorem followSteps_append (h : followSteps t true links loc a = .ok d)
    (hd : followSteps t follow more d (step :: rest) = .ok l) :
    followSteps t follow (links + more) loc (a ++ step :: rest) = .ok l := by
  induction links generalizing loc a with
  | zero =>
    rw [Nat.zero_add]
    cases more with
    | zero => exact followWith_whole hd (fun hgo => by cases hgo) h
    | succ more => exact followWith_whole hd (fun hgo => by cases hgo) h
  | succ links ih =>
    have hgo := followSteps_more hd (links + 1)
    rw [Nat.add_comm] at hgo
    rw [Nat.succ_add] at hgo ⊢
    exact followWith_whole hgo ih h

/-- Two halves make the whole, or they make too many links. -/
theorem followSteps_whole (h : followSteps t true links loc a = .ok d)
    (hd : followSteps t follow more d (step :: rest) = .ok l) :
    followSteps t follow links loc (a ++ step :: rest) = .ok l ∨
      followSteps t follow links loc (a ++ step :: rest) = .error .tooManyLinks :=
  followSteps_fewer (followSteps_append h hd)

end PromptRunner.Files
