import PromptRunner.Proofs.Sharing.Effects

/-!
# What one access means to others

Some processes use the keys of one directory. Their places hold regular files or nothing to begin
with, and no way leads through a file, so that the ways of the processes stay as they are
(`Shelf`). Then an access has no hold on what others do: it closes no way, leaves every file alone
but those of the keys and the process's own, and brings a file to the place of a key only by moving
one there that is complete (`Access`). There is one lemma for each effect.
-/

namespace PromptRunner.Sharing

open PromptRunner.Files PromptRunner.Cache PromptRunner.Generation PromptRunner.Text

/-- A tree differs from another one only where that was free or a key has its place, and in no new
link. -/
def Alters (places : Location → Prop) (t₀ t : Tree) : Prop :=
  ∀ l, t.node? l = t₀.node? l ∨
    (t₀.node? l = none ∨ places l) ∧ ∀ target, t.node? l ≠ some (.link target)

/-- The places of the keys that some processes use. -/
structure Shelf {ι : Type} (procs : ι → Process) (places : Location → Prop) (t₀ : Tree) :
    Prop where
  named : ∀ {l}, places l → ∃ model prompt d, l = fileName model prompt :: d
  start : ∀ {l}, places l → t₀.node? l = none ∨ ∃ f, t₀.node? l = some (.file f)
  leads : ∀ {i t l}, Alters places t₀ t →
    resolve t (procs i).cwd false (procs i).path = .ok l → places l

/-- What one access of a process with such a state means to the others. -/
structure Access (places : Location → Prop) (t₀ t : Tree) (phase : Phase) (t' : Tree)
    (next : Phase) (event : Option Event) : Prop where
  keeps : Keeps t t'
  alters : Alters places t₀ t'
  others : ∀ {l f}, t.node? l = some (.file f) → ¬ places l → (∀ g, ¬ Holds t phase l g) →
    t'.node? l = some (.file f)
  lent : ∀ {temporary}, next.temporary? = some temporary →
    ∃ place f, Lent t' temporary place f ∧ t₀.node? place = none ∧
      (t.node? place = none ∨ ∃ g, Holds t phase place g)
  ready : ∀ {e temporary place f}, next = .moving e temporary → Lent t' temporary place f →
    f.content = bytesOf e.text
  files : ∀ {l f}, t'.node? l = some (.file f) → Holds t' next l f ∨
    (∃ e, event = some (.moved l e f)) ∨
    t.node? l = some (.file f) ∧ ∀ g, ¬ Holds t phase l g
  moved : ∀ {l e f}, event = some (.moved l e f) →
    places l ∧ f.content = bytesOf e.text ∧ t'.node? l = some (.file f)

variable {ι : Type} {procs : ι → Process} {places : Location → Prop} {t₀ t t' : Tree}
  {phase next : Phase} {told : Option Event} {i : ι}
  {l place : Location} {temporary : String} {e : Entry} {f g : RegularFile}

/-! ## Places that differ -/

theorem Alters.refl (places : Location → Prop) (t : Tree) : Alters places t t := fun _ => .inl rfl

/-- Where nothing lies now, nothing lay at first, or a key has its place. -/
theorem Alters.of_free (h : Alters places t₀ t) (hfree : t.node? l = none) :
    t₀.node? l = none ∨ places l := by
  rcases h l with hsame | ⟨hplace, -⟩
  · exact .inl (hsame.symm.trans hfree)
  · exact hplace

/-- A change in one place. -/
theorem Alters.change (h : Alters places t₀ t)
    (hsame : ∀ other, other ≠ place → t'.node? other = t.node? other)
    (hplace : t₀.node? place = none ∨ places place)
    (hlink : ∀ target, t'.node? place ≠ some (.link target)) : Alters places t₀ t' := by
  intro l
  by_cases hl : l = place
  · subst hl
    exact .inr ⟨hplace, hlink⟩
  · rw [hsame l hl]
    exact h l

theorem Alters.grows (h : Alters places t₀ t) (hgrows : Grows t t') : Alters places t₀ t' := by
  intro l
  rcases hgrows l with hsame | ⟨hfree, hnew⟩
  · rw [hsame]
    exact h l
  · refine .inr ⟨h.of_free hfree, ?_⟩
    rw [hnew]
    nofun

/-- The place of a key never holds a link. -/
theorem Shelf.no_link (shelf : Shelf procs places t₀) (h : Alters places t₀ t) (hl : places l)
    (target : String) : t.node? l ≠ some (.link target) := by
  rcases h l with hsame | ⟨-, hlink⟩
  · rw [hsame]
    rcases shelf.start hl with hfree | ⟨f, hfile⟩
    · rw [hfree]
      nofun
    · rw [hfile]
      nofun
  · exact hlink target

theorem Shelf.ne_root (shelf : Shelf procs places t₀) (hl : places l) : l ≠ [] := by
  obtain ⟨model, prompt, d, rfl⟩ := shelf.named hl
  exact List.cons_ne_nil _ _

/-- A temporary file is not in the place of a key. -/
theorem Shelf.not_lent (shelf : Shelf procs places t₀) (h : Lent t temporary place f) :
    ¬ places place := by
  intro hplace
  obtain ⟨model, prompt, d, heq⟩ := shelf.named hplace
  exact h.ne_key model prompt d heq

/-! ## Files that are held -/

theorem Holds.file (h : Holds t phase l f) : t.node? l = some (.file f) := by
  obtain ⟨temporary, -, hlent⟩ := h
  exact hlent.file

theorem Holds.place_eq (h : Holds t phase l f) (htemporary : phase.temporary? = some temporary)
    (hk : Keeps t t') (hlent : Lent t' temporary place g) : place = l := by
  obtain ⟨temporary', htemporary', hlent'⟩ := h
  rw [htemporary] at htemporary'
  cases htemporary'
  exact hlent'.place_eq hk hlent

theorem not_holds (h : phase.temporary? = none) (l : Location) (f : RegularFile) :
    ¬ Holds t phase l f := by
  rintro ⟨temporary, htemporary, -⟩
  rw [h] at htemporary
  cases htemporary

theorem Shelf.not_holds (shelf : Shelf procs places t₀) (hl : places l) :
    ¬ Holds t phase l f := by
  rintro ⟨temporary, -, hlent⟩
  exact shelf.not_lent hlent hl

/-! ## One access -/

/-- An access after which the process has no temporary file. -/
theorem access_released (hafter : next.temporary? = none) (hkeeps : Keeps t t')
    (halters : Alters places t₀ t')
    (hothers : ∀ {l f}, t.node? l = some (.file f) → ¬ places l → (∀ g, ¬ Holds t phase l g) →
      t'.node? l = some (.file f))
    (hfiles : ∀ {l f}, t'.node? l = some (.file f) → (∃ e, told = some (.moved l e f)) ∨
      t.node? l = some (.file f) ∧ ∀ g, ¬ Holds t phase l g)
    (hmoved : ∀ {l e f}, told = some (.moved l e f) →
      places l ∧ f.content = bytesOf e.text ∧ t'.node? l = some (.file f)) :
    Access places t₀ t phase t' next told := by
  refine ⟨hkeeps, halters, hothers, ?_, ?_, fun hfile => .inr (hfiles hfile), hmoved⟩
  · intro temporary htemporary
    rw [hafter] at htemporary
    cases htemporary
  · intro e temporary _ _ hmoving
    exact absurd hmoving (not_moving hafter e temporary)

/-- The file of a key, or that of the process itself, is removed. -/
theorem access_erased (halters : Alters places t₀ t) (hafter : next.temporary? = none)
    (hfile : t.node? place = some (.file f))
    (hplace : places place ∨ Holds t phase place f ∧ t₀.node? place = none)
    (hone : ∀ {l g}, Holds t phase l g → l = place)
    (hevent : ∀ l e g, told ≠ some (.moved l e g)) :
    Access places t₀ t phase (t.erase place) next told := by
  have herased := t.node?_erase_self (ne_root_of_file hfile)
  refine access_released hafter (keeps_of_erase_file hfile) ?_ ?_ ?_
    fun hmoved => absurd hmoved (hevent _ _ _)
  · refine halters.change (fun _ hne => t.node?_erase_ne hne) ?_ ?_
    · exact hplace.symm.imp_left And.right
    · rw [herased]
      nofun
  · intro l g hthere hl hnot
    have hne : l ≠ place := by
      rintro rfl
      exact hplace.elim hl fun hown => hnot f hown.1
    rw [t.node?_erase_ne hne, hthere]
  · intro l g hthere
    have hne : l ≠ place := by
      rintro rfl
      rw [herased] at hthere
      cases hthere
    rw [t.node?_erase_ne hne] at hthere
    exact .inr ⟨hthere, fun g' hg' => hne (hone hg')⟩

section Effects

variable (shelf : Shelf procs places t₀) (halters : Alters places t₀ t)
include shelf halters

theorem access_removed {node : Node} (hbefore : phase.temporary? = none)
    (hafter : next.temporary? = none)
    (hplace : resolve t (procs i).cwd false (procs i).path = .ok place)
    (hnode : t.node? place = some node) (hdirectory : node ≠ .directory) :
    Access places t₀ t phase (t.erase place) next (some (.removed place node)) := by
  have hkey := shelf.leads halters hplace
  obtain ⟨f, rfl⟩ : ∃ f, node = .file f := by
    cases node with
    | file f => exact ⟨f, rfl⟩
    | directory => exact absurd rfl hdirectory
    | link target => exact absurd hnode (shelf.no_link halters hkey target)
  exact access_erased halters hafter hnode (.inl hkey)
    (fun hheld => absurd hheld (not_holds hbefore _ _)) nofun

theorem access_created {made : Tree} (hgains : Gains t made place f)
    (hlent : Lent made temporary place f) :
    Access places t₀ t (.creating e) made (.filling e temporary) none := by
  have hfree : t₀.node? place = none := by
    rcases halters.of_free hgains.free with hfree | hkey
    · exact hfree
    · exact absurd hkey (shelf.not_lent hlent)
  refine ⟨hgains.keeps, ?_, ?_, ?_, nofun, ?_, nofun⟩
  · refine halters.change hgains.same (.inl hfree) ?_
    rw [hgains.file]
    nofun
  · intro l g hfile _ _
    have hne : l ≠ place := by
      rintro rfl
      rw [hgains.free] at hfile
      cases hfile
    rw [hgains.same l hne, hfile]
  · intro temporary' htemporary
    cases htemporary
    exact ⟨place, f, hlent, hfree, .inl hgains.free⟩
  · intro l g hfile
    by_cases hl : l = place
    · subst hl
      rw [hgains.file] at hfile
      cases hfile
      exact .inl ⟨temporary, rfl, hlent⟩
    · rw [hgains.same l hl] at hfile
      exact .inr (.inr ⟨hfile, not_holds rfl l⟩)

omit shelf in
theorem access_filled (hlent : Lent t temporary place f) (hfree : t₀.node? place = none)
    (hnext : next = .moving e temporary ∧ g.content = bytesOf e.text ∨
      ∃ cause, next = .dropping e temporary cause) :
    Access places t₀ t (.filling e temporary) (t.put place (.file g)) next none := by
  have hkeeps : Keeps t (t.put place (.file g)) := keeps_put_file (.inr ⟨f, hlent.file⟩) g
  have hput := t.node?_put_self (.file g) (ne_root_of_file hlent.file)
  have hlent' := hlent.of_keeps hkeeps hput
  have hholds : Holds t (.filling e temporary) place f := ⟨temporary, rfl, hlent⟩
  have htemporary : next.temporary? = some temporary := by
    rcases hnext with ⟨rfl, -⟩ | ⟨cause, rfl⟩ <;> rfl
  refine ⟨hkeeps, ?_, ?_, ?_, ?_, ?_, nofun⟩
  · refine halters.change (fun _ hne => t.node?_put_ne _ hne) (.inl hfree) ?_
    rw [hput]
    nofun
  · intro l h hfile _ hnot
    have hne : l ≠ place := fun heq => hnot f (heq ▸ hholds)
    rw [t.node?_put_ne _ hne, hfile]
  · intro temporary' htemporary'
    rw [htemporary] at htemporary'
    cases htemporary'
    exact ⟨place, g, hlent', hfree, .inr ⟨f, hholds⟩⟩
  · intro e' temporary' place' f' hmoving hlent''
    rcases hnext with ⟨rfl, hcontent⟩ | ⟨cause, rfl⟩
    · cases hmoving
      have hplace := hlent'.place_eq (.refl _) hlent''
      have hfile := hlent''.file
      rw [hplace, hput] at hfile
      cases hfile
      exact hcontent
    · cases hmoving
  · intro l h hfile
    by_cases hl : l = place
    · subst hl
      rw [hput] at hfile
      cases hfile
      exact .inl ⟨temporary, htemporary, hlent'⟩
    · rw [t.node?_put_ne _ hl] at hfile
      exact .inr (.inr ⟨hfile, fun g' hg' => hl (hg'.place_eq rfl (.refl t) hlent).symm⟩)

theorem access_moved {new : Location} (hafter : next.temporary? = none)
    (hlent : Lent t temporary place f) (hfree : t₀.node? place = none)
    (hcontent : f.content = bytesOf e.text)
    (hplace : resolve t (procs i).cwd false (procs i).path = .ok new)
    (hdirectory : t.node? new ≠ some .directory) :
    Access places t₀ t (.moving e temporary) ((t.erase place).put new (.file f)) next
      (some (.moved new e f)) := by
  have hkey := shelf.leads halters hplace
  have hne : new ≠ place := fun heq => shelf.not_lent hlent (heq ▸ hkey)
  have hroot := ne_root_of_file hlent.file
  have hput := (t.erase place).node?_put_self (.file f) (shelf.ne_root hkey)
  have herased : ((t.erase place).put new (.file f)).node? place = none := by
    rw [Tree.node?_put_ne _ _ hne.symm, t.node?_erase_self hroot]
  have hsame : ∀ other, other ≠ place → other ≠ new →
      ((t.erase place).put new (.file f)).node? other = t.node? other := by
    intro other hother hother'
    rw [Tree.node?_put_ne _ _ hother', t.node?_erase_ne hother]
  have hholds : Holds t (.moving e temporary) place f := ⟨temporary, rfl, hlent⟩
  refine access_released hafter ?_ ?_ ?_ ?_ ?_
  · refine (keeps_of_erase_file hlent.file).trans (keeps_put_file ?_ f)
    rw [t.node?_erase_ne hne]
    cases hnode : t.node? new with
    | none => exact .inl rfl
    | some node =>
      cases node with
      | file g => exact .inr ⟨g, rfl⟩
      | directory => exact absurd hnode hdirectory
      | link target => exact absurd hnode (shelf.no_link halters hkey target)
  · have herase : Alters places t₀ (t.erase place) := by
      refine halters.change (fun _ hother => t.node?_erase_ne hother) (.inl hfree) ?_
      rw [t.node?_erase_self hroot]
      nofun
    refine herase.change (fun _ hother => Tree.node?_put_ne _ _ hother) (.inr hkey) ?_
    rw [hput]
    nofun
  · intro l g hfile hl hnot
    have hne' : l ≠ place := fun heq => hnot f (heq ▸ hholds)
    have hne'' : l ≠ new := fun heq => hl (heq ▸ hkey)
    rw [hsame l hne' hne'', hfile]
  · intro l g hfile
    by_cases hl : l = new
    · subst hl
      rw [hput] at hfile
      cases hfile
      exact .inl ⟨e, rfl⟩
    · have hl' : l ≠ place := by
        rintro rfl
        rw [herased] at hfile
        cases hfile
      rw [hsame l hl' hl] at hfile
      exact .inr ⟨hfile, fun g' hg' => hl' (hg'.place_eq rfl (.refl t) hlent).symm⟩
  · intro l e' g heq
    cases heq
    exact ⟨hkey, hcontent, hput⟩

omit shelf in
theorem access_dropped (hbefore : phase.temporary? = some temporary)
    (hafter : next.temporary? = none) (hlent : Lent t temporary place f)
    (hfree : t₀.node? place = none) : Access places t₀ t phase (t.erase place) next none :=
  access_erased halters hafter hlent.file (.inr ⟨⟨temporary, hbefore, hlent⟩, hfree⟩)
    (fun hheld => (hheld.place_eq hbefore (.refl t) hlent).symm) nofun

/-- Every effect keeps the ways, the other processes' files and the shape of what there is. -/
theorem access_of_effect
    (hlent : ∀ {temporary}, phase.temporary? = some temporary →
      ∃ place f, Lent t temporary place f ∧ t₀.node? place = none)
    (hready : ∀ {e temporary place f}, phase = .moving e temporary →
      Lent t temporary place f → f.content = bytesOf e.text)
    (h : Effect (procs i) t phase t' next told) : Access places t₀ t phase t' next told := by
  -- a temporary file has one place, and that was free
  have hfree : ∀ {temporary place f}, phase.temporary? = some temporary →
      Lent t temporary place f → t₀.node? place = none := by
    intro temporary place f htemporary hown
    obtain ⟨place', f', hlent', hfree⟩ := hlent htemporary
    rwa [hlent'.place_eq (.refl t) hown]
  cases h with
  | quiet htemporary hmoving hevent =>
    refine ⟨.refl t, halters, fun hfile _ _ => hfile, ?_, ?_, ?_, ?_⟩
    · intro temporary hnext
      obtain ⟨place, f, hown, hfree⟩ := hlent (htemporary.symm.trans hnext)
      exact ⟨place, f, hown, hfree, .inr ⟨f, temporary, htemporary.symm.trans hnext, hown⟩⟩
    · intro e temporary _ _ hnext
      exact absurd hnext (hmoving e temporary)
    · intro l f hfile
      by_cases hheld : ∃ g, Holds t phase l g
      · obtain ⟨g, temporary, hbefore, hown⟩ := hheld
        have hsame := hown.file
        rw [hfile] at hsame
        cases hsame
        exact .inl ⟨temporary, htemporary.trans hbefore, hown⟩
      · exact .inr (.inr ⟨hfile, fun g hg => hheld ⟨g, hg⟩⟩)
    · intro l e f hmoved
      exact absurd hmoved (hevent l e f)
  | grown hafter hgrows =>
    refine access_released hafter hgrows.keeps (halters.grows hgrows)
      (fun hfile _ _ => hgrows.node hfile) ?_ nofun
    intro l f hfile
    rcases hgrows l with hsame | ⟨-, hnew⟩
    · exact .inr ⟨hsame ▸ hfile, not_holds rfl l⟩
    · rw [hnew] at hfile
      cases hfile
  | removed hbefore hafter hplace hnode hdirectory =>
    exact access_removed shelf halters hbefore hafter hplace hnode hdirectory
  | created hgains hown => exact access_created shelf halters hgains hown
  | filled hown hnext => exact access_filled halters hown (hfree rfl hown) hnext
  | moved hafter hown hplace hdirectory =>
    exact access_moved shelf halters hafter hown (hfree rfl hown) (hready rfl hown) hplace
      hdirectory
  | dropped hbefore hafter hown =>
    exact access_dropped halters hbefore hafter hown (hfree hbefore hown)

end Effects

end PromptRunner.Sharing
