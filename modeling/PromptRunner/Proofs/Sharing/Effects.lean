import PromptRunner.Proofs.Cache.Temporary
import PromptRunner.Proofs.Sharing.Steps

/-!
# What one access does

An access changes nothing, makes directories, or is one of five: the removal of what lies at the
path of the key, and the making, the filling, the moving and the removal of a temporary file.
`Effect` is that list, with what is known of the places that change, and `effect_of_advance` says
that it is complete, whatever is refused. All that is shown of many processes goes by it.
-/

namespace PromptRunner.Sharing

open PromptRunner.Files PromptRunner.Cache PromptRunner.Generation PromptRunner.Text

/-- The path of the temporary file that a process has. -/
def Phase.temporary? : Phase → Option String
  | .filling _ temporary => some temporary
  | .moving _ temporary => some temporary
  | .dropping _ temporary _ => some temporary
  | _ => none

/-- The entry that a process is about to store. -/
def Phase.carried? : Phase → Option Entry
  | .preparing e => some e
  | .creating e => some e
  | .filling e _ => some e
  | .moving e _ => some e
  | .dropping e _ _ => some e
  | _ => none

/-- The file that a process has under a temporary name. -/
def Holds (t : Tree) (phase : Phase) (place : Location) (f : RegularFile) : Prop :=
  ∃ temporary, phase.temporary? = some temporary ∧ Lent t temporary place f

/-- What an access does to the tree and where the process stands then, with what it lets others
know. -/
inductive Effect (p : Process) (t : Tree) : Phase → Tree → Phase → Option Event → Prop where
  | quiet {phase next event} (htemporary : next.temporary? = phase.temporary?)
      (hmoving : ∀ e temporary, next ≠ .moving e temporary)
      (hevent : ∀ place e f, event ≠ some (.moved place e f)) : Effect p t phase t next event
  | grown {e made next} (hafter : next.temporary? = none) (hgrows : Grows t made) :
      Effect p t (.preparing e) made next none
  | removed {phase place node next} (hbefore : phase.temporary? = none)
      (hafter : next.temporary? = none) (hplace : resolve t p.cwd false p.path = .ok place)
      (hnode : t.node? place = some node) (hdirectory : node ≠ .directory) :
      Effect p t phase (t.erase place) next (some (.removed place node))
  | created {e temporary place f made} (hgains : Gains t made place f)
      (hlent : Lent made temporary place f) :
      Effect p t (.creating e) made (.filling e temporary) none
  | filled {e temporary place f g next} (hlent : Lent t temporary place f)
      (hnext : next = .moving e temporary ∧ g.content = bytesOf e.text ∨
        ∃ cause, next = .dropping e temporary cause) :
      Effect p t (.filling e temporary) (t.put place (.file g)) next none
  | moved {e temporary place f new next} (hafter : next.temporary? = none)
      (hlent : Lent t temporary place f) (hplace : resolve t p.cwd false p.path = .ok new)
      (hdirectory : t.node? new ≠ some .directory) :
      Effect p t (.moving e temporary) ((t.erase place).put new (.file f)) next
        (some (.moved new e f))
  | dropped {phase temporary place f next} (hbefore : phase.temporary? = some temporary)
      (hafter : next.temporary? = none) (hlent : Lent t temporary place f) :
      Effect p t phase (t.erase place) next none

/-! ## Phases without a temporary file -/

variable {p : Process} {m : Moment} {t t' : Tree} {phase next : Phase} {l place : Location}
  {e : Entry} {temporary : String} {f : RegularFile}

@[simp] theorem temporary?_missed (w : Work) : w.missed.temporary? = none := by
  cases w <;> rfl

@[simp] theorem temporary?_hit (w : Work) (content : String) :
    (w.hit content).temporary? = none := by
  cases w <;> rfl

@[simp] theorem temporary?_closed (w : Work) (e : Entry) (outcome : Except IoError Unit) :
    (w.closed e outcome).temporary? = none := by
  cases w <;> rfl

@[simp] theorem temporary?_replied (w : Work) (m : Moment) :
    (w.replied m).temporary? = none := by
  cases w with
  | answer d =>
    simp only [Work.replied]
    split
    · rfl
    · split <;> rfl
  | _ => rfl

@[simp] theorem temporary?_start (w : Work) : w.start.temporary? = none := by
  cases w with
  | answer d =>
    simp only [Work.start]
    split <;> rfl
  | _ => rfl

theorem not_moving (h : phase.temporary? = none) (e : Entry) (temporary : String) :
    phase ≠ .moving e temporary := by
  rintro rfl
  cases h

/-! ## Events -/

/-- What is removed is what lies where the path leads. -/
theorem removeFile_spec {cwd : Location} {path : String} (h : removeFile t cwd path = .ok t') :
    ∃ place node, resolve t cwd false path = .ok place ∧ t.node? place = some node ∧
      node ≠ .directory ∧ t' = t.erase place := by
  unfold removeFile at h
  split at h
  · cases h
  · next place hplace =>
    split at h
    · cases h
    · cases h
    · next node hdirectory hnode =>
      cases h
      exact ⟨place, node, hplace, hnode, fun hd => hdirectory hd, rfl⟩

/-- What an event says of the access that it tells of. -/
def Event.Meaning (p : Process) (m : Moment) (t : Tree) (phase : Phase) : Event → Prop
  | .asked d reply =>
    phase = .asking ∧ p.work = .answer d ∧ reply = m.ask (query d.model d.prompt)
  | .found place content =>
    phase = .valid ∧ resolve t p.cwd false p.path = .ok place ∧
      readAnswer t p.cwd p.path = some content
  | .removed place node =>
    phase = .expired ∧ resolve t p.cwd false p.path = .ok place ∧ t.node? place = some node ∧
      node ≠ .directory
  | .moved place e _ =>
    (∃ temporary, phase = .moving e temporary) ∧ resolve t p.cwd false p.path = .ok place

theorem meaning_of_event {told : Event} (h : event p m t phase = some told) :
    told.Meaning p m t phase := by
  cases phase with
  | expired =>
    simp only [event] at h
    split at h
    · next hplace hremove =>
      obtain ⟨node, hnode, rfl⟩ := Option.map_eq_some_iff.1 h
      obtain ⟨place', node', hplace', hnode', hdirectory, -⟩ := removeFile_spec hremove
      rw [hplace] at hplace'
      cases hplace'
      rw [hnode] at hnode'
      cases hnode'
      exact ⟨rfl, hplace, hnode, hdirectory⟩
    · cases h
  | valid =>
    simp only [event] at h
    split at h
    · next hplace hread =>
      cases h
      exact ⟨rfl, hplace, hread⟩
    · cases h
  | asking =>
    simp only [event] at h
    split at h
    · next d hwork =>
      cases h
      exact ⟨rfl, hwork, rfl⟩
    · cases h
  | moving e temporary =>
    simp only [event] at h
    split at h
    · next hplace _ =>
      split at h
      · cases h
        exact ⟨⟨temporary, rfl⟩, hplace⟩
      · cases h
    · cases h
  | _ => cases h

/-- A process that has no temporary file moves none. -/
theorem not_moved (h : phase.temporary? = none) (place : Location) (e : Entry) (f : RegularFile) :
    event p m t phase ≠ some (.moved place e f) := by
  intro hmoved
  obtain ⟨⟨temporary, hmoving⟩, -⟩ := meaning_of_event hmoved
  exact not_moving h e temporary hmoving

/-! ## One lemma for each phase -/

/-- An access that changes nothing in a phase without a temporary file. -/
theorem Effect.still {event : Option Event} (hbefore : phase.temporary? = none)
    (hafter : next.temporary? = none) (hevent : ∀ place e f, event ≠ some (.moved place e f)) :
    Effect p t phase t next event :=
  .quiet (hafter.trans hbefore.symm) (not_moving hafter) hevent

/-- Such an access of which nothing is known. -/
theorem Effect.unseen (hbefore : phase.temporary? = none) (hafter : next.temporary? = none) :
    Effect p t phase t next none := .still hbefore hafter nofun

/-- A process that could not move its file has it still. -/
theorem Effect.unmoved (cause : IoError) :
    Effect p t (.moving e temporary) t (.dropping e temporary cause) none := .quiet rfl nofun nofun

theorem effect_looking :
    Effect p t .looking (advance p m t .looking).1 (advance p m t .looking).2
      (event p m t .looking) := by
  simp only [advance, event]
  split
  · exact .unseen rfl rfl
  · exact .unseen rfl rfl
  · exact .unseen rfl (temporary?_missed _)

theorem effect_expired :
    Effect p t .expired (advance p m t .expired).1 (advance p m t .expired).2
      (event p m t .expired) := by
  simp only [advance, event]
  cases m.refusal with
  | some r => exact .unseen rfl (temporary?_missed _)
  | none =>
    simp only [Cache.discard]
    cases hremove : removeFile t p.cwd p.path with
    | error cause =>
      cases resolve t p.cwd false p.path <;> exact .unseen rfl (temporary?_missed _)
    | ok t' =>
      obtain ⟨place, node, hplace, hnode, hdirectory, rfl⟩ := removeFile_spec hremove
      simp only [hplace, hnode, Option.map_some]
      exact .removed rfl (temporary?_missed _) hplace hnode hdirectory

theorem effect_valid :
    Effect p t .valid (advance p m t .valid).1 (advance p m t .valid).2 (event p m t .valid) := by
  simp only [advance]
  split
  · exact .still rfl (temporary?_hit ..) (not_moved rfl)
  · exact .still rfl (temporary?_missed _) (not_moved rfl)

theorem effect_asking :
    Effect p t .asking (advance p m t .asking).1 (advance p m t .asking).2
      (event p m t .asking) :=
  .still rfl (temporary?_replied ..) (not_moved rfl)

theorem effect_preparing :
    Effect p t (.preparing e) (advance p m t (.preparing e)).1 (advance p m t (.preparing e)).2
      (event p m t (.preparing e)) := by
  simp only [advance, event]
  split
  · have hgrows : Grows t (madeSoFar (createDirectories t p.cwd p.parent)) :=
      grows_of_createDirectories
    split
    · next made hmade =>
      rw [hmade] at hgrows
      exact .grown rfl hgrows
    · next hmade =>
      rw [hmade] at hgrows
      exact .grown (temporary?_closed ..) hgrows
  · dsimp only
    exact .grown (temporary?_closed ..) grows_of_createDirectories

theorem effect_creating :
    Effect p t (.creating e) (advance p m t (.creating e)).1 (advance p m t (.creating e)).2
      (event p m t (.creating e)) := by
  simp only [advance, event]
  split
  · split
    · next hmade =>
      obtain ⟨place, f, hgains, hlent⟩ := lent_of_createTemporary hmade
      exact .created hgains hlent
    · exact .unseen rfl (temporary?_closed ..)
  · exact .unseen rfl (temporary?_closed ..)

theorem effect_filling (hlent : Lent t temporary place f) :
    Effect p t (.filling e temporary) (advance p m t (.filling e temporary)).1
      (advance p m t (.filling e temporary)).2 (event p m t (.filling e temporary)) := by
  simp only [advance, event, hlent.writeFile_eq]
  cases m.refusal with
  | none =>
    refine .filled hlent (.inl ⟨rfl, ?_⟩)
    dsimp only
  | some r => exact .filled hlent (.inr ⟨r.cause, rfl⟩)

theorem effect_moving (hlent : Lent t temporary place f) :
    Effect p t (.moving e temporary) (advance p m t (.moving e temporary)).1
      (advance p m t (.moving e temporary)).2 (event p m t (.moving e temporary)) := by
  simp only [advance, event]
  cases m.refusal with
  | some r => exact .unmoved r.cause
  | none =>
    cases hrename : rename t p.cwd temporary p.path with
    | error cause =>
      cases resolve t p.cwd false p.path <;> exact .unmoved cause
    | ok t' =>
      obtain ⟨new, hnew, hdirectory, rfl⟩ := rename_spec (hlent.leads p.cwd) hlent.file hrename
      have hfile := (t.erase place).node?_put_self (.file f) (ne_root hdirectory)
      simp only [hnew, hfile]
      exact .moved (temporary?_closed ..) hlent hnew hdirectory

theorem effect_dropping {cause : IoError} (hlent : Lent t temporary place f) :
    Effect p t (.dropping e temporary cause) (advance p m t (.dropping e temporary cause)).1
      (advance p m t (.dropping e temporary cause)).2
      (event p m t (.dropping e temporary cause)) := by
  simp only [advance, event, hlent.discard_eq]
  exact .dropped rfl (temporary?_closed ..) hlent

/-- An access has one of these effects, if a process that has a temporary file has it. -/
theorem effect_of_advance (m : Moment)
    (hlent : ∀ temporary, phase.temporary? = some temporary →
      ∃ place f, Lent t temporary place f) :
    Effect p t phase (advance p m t phase).1 (advance p m t phase).2 (event p m t phase) := by
  cases phase with
  | looking => exact effect_looking
  | expired => exact effect_expired
  | valid => exact effect_valid
  | asking => exact effect_asking
  | preparing e => exact effect_preparing
  | creating e => exact effect_creating
  | filling e temporary =>
    obtain ⟨place, f, h⟩ := hlent temporary rfl
    exact effect_filling h
  | moving e temporary =>
    obtain ⟨place, f, h⟩ := hlent temporary rfl
    exact effect_moving h
  | dropping e temporary cause =>
    obtain ⟨place, f, h⟩ := hlent temporary rfl
    exact effect_dropping h
  | done r => exact .still rfl rfl nofun

/-! ## Directories -/

/-- A change at one place that leaves no directory there makes no directory. -/
theorem directory_of_change (hplace : t'.node? place = some .directory → place = [])
    (hsame : ∀ l, l ≠ place → t'.node? l = t.node? l) (h : t'.node? l = some .directory) :
    t.node? l = some .directory := by
  by_cases hl : l = place
  · subst hl
    rw [hplace h]
    rfl
  · rwa [← hsame l hl]

theorem directory_of_erase (h : (t.erase place).node? l = some .directory) :
    t.node? l = some .directory :=
  directory_of_change (fun hd => of_not_not fun hroot => by
    rw [t.node?_erase_self hroot] at hd
    cases hd) (fun _ => t.node?_erase_ne) h

theorem directory_of_put (h : (t.put place (.file f)).node? l = some .directory) :
    t.node? l = some .directory :=
  directory_of_change (fun hd => of_not_not fun hroot => by
    rw [t.node?_put_self _ hroot] at hd
    cases hd) (fun _ => t.node?_put_ne _) h

/-- Directories come from nowhere else than from being made. -/
theorem directory_of_effect {told : Option Event} (h : Effect p t phase t' next told)
    (hphase : ∀ e, phase ≠ .preparing e) (hd : t'.node? l = some .directory) :
    t.node? l = some .directory := by
  cases h with
  | quiet => exact hd
  | grown => exact absurd rfl (hphase _)
  | removed => exact directory_of_erase hd
  | @created _ _ place f _ hgains _ =>
    refine directory_of_change (fun hd => ?_) hgains.same hd
    rw [hgains.file] at hd
    cases hd
  | filled => exact directory_of_put hd
  | moved => exact directory_of_erase (directory_of_put hd)
  | dropped => exact directory_of_erase hd

end PromptRunner.Sharing
