import PromptRunner.Proofs.Cache.Age
import PromptRunner.Proofs.Cache.Temporary
import PromptRunner.Proofs.Files.Furnishing
import PromptRunner.Proofs.Sharing.Steps

/-!
# Storing is all or nothing

Storing takes five accesses, and at each of them it may be refused, also in the middle of making
directories and of writing. `Stage` says how far it came and what the tree is like then. Before the
move, the tree is the one with the directories made and a temporary file in a free place; so what a
failure leaves, once the temporary file is gone, are directories, and only those that were missing.
After the move, the document lies where the path leads, and nothing else is new.

The document is found there unless the way leads through what the move replaces, which takes a link
at the path itself.
-/

namespace PromptRunner.Sharing

open PromptRunner.Files PromptRunner.Cache PromptRunner.Text

variable {t t' u : Tree} {cwd l loc place : Location} {p : Process} {phase : Phase} {e entry : Entry}
  {m : Moment} {temporary path directory model prompt : String} {f : RegularFile}
  {outcome : Except IoError Unit} {names : List String} {now : Int}

/-! ## What storing leaves -/

/-- Nothing but directories, and none where all of them were there. -/
structure Failed (t u : Tree) (cwd : Location) (parent : String) : Prop where
  furnished : Furnished t u cwd parent
  same : Walkable t cwd parent → ∀ l, u.node? l = t.node? l

/-- A document where a path leads, and nothing else. -/
def Placed (made u : Tree) (cwd : Location) (path : String) (e : Entry) : Prop :=
  ∃ loc f, resolve made cwd false path = .ok loc ∧ made.node? loc ≠ some .directory ∧
    u.node? loc = some (.file f) ∧ f.content = bytesOf e.text ∧
    ∀ l, l ≠ loc → u.node? l = made.node? l

theorem failed_of_createDirectories (t : Tree) (cwd : Location) {wider : String}
    (hwider : Outer path wider ∨ wider = "") :
    Failed t (madeSoFar (createDirectories t cwd wider)) cwd path := by
  rcases hwider with houter | rfl
  · refine ⟨(furnished_of_createDirectories t cwd wider).widen houter, fun h l => ?_⟩
    rw [createDirectories_of_walkable (h.outer houter)]
  · exact ⟨.refl t cwd path, fun _ _ => rfl⟩

/-- A path further out is an outer path, or there is none so far out. -/
theorem outer_outward (levels : Nat) (path : String) :
    Outer path (outward levels path) ∨ outward levels path = "" := by
  induction levels generalizing path with
  | zero => exact .inl .self
  | succ levels ih =>
    rw [outward]
    cases hparent : Path.parent? path with
    | none => exact .inr rfl
    | some outer => exact (ih outer).imp_left (.of_parent hparent)

/-! ## One access -/

/-- How far a process has come that stores an entry into a tree, with the tree as it is then. -/
inductive Stage (p : Process) (t : Tree) (e : Entry) : Tree → Phase → Prop where
  | preparing : Stage p t e t (.preparing e)
  | creating : Stage p t e (prepared t p.cwd p.path) (.creating e)
  | filling {u : Tree} {place : Location} {f : RegularFile} {temporary : String}
      (hgains : Gains (prepared t p.cwd p.path) u place f) (hlent : Lent u temporary place f) :
      Stage p t e u (.filling e temporary)
  | moving {u : Tree} {place : Location} {f : RegularFile} {temporary : String}
      (hgains : Gains (prepared t p.cwd p.path) u place f) (hlent : Lent u temporary place f)
      (hcontent : f.content = bytesOf e.text) : Stage p t e u (.moving e temporary)
  | dropping {u : Tree} {place : Location} {f : RegularFile} {temporary : String} {cause : IoError}
      (hgains : Gains (prepared t p.cwd p.path) u place f) (hlent : Lent u temporary place f) :
      Stage p t e u (.dropping e temporary cause)
  | failed {u : Tree} {cause : IoError} (h : Failed t u p.cwd p.parent) :
      Stage p t e u (.done (.stored (.error cause)))
  | stored {u : Tree} (h : Placed (prepared t p.cwd p.path) u p.cwd p.path e) :
      Stage p t e u (.done (.stored (.ok ())))

theorem prepared_eq :
    prepared t p.cwd p.path = madeSoFar (createDirectories t p.cwd p.parent) := rfl

theorem failed_prepared : Failed t (prepared t p.cwd p.path) p.cwd p.parent := by
  rw [prepared_eq]
  exact failed_of_createDirectories t p.cwd (.inl .self)

/-- Without the temporary file, the tree is the one with the directories made. -/
theorem Failed.of_gains {made : Tree} (h : Failed t made p.cwd p.parent)
    (hgains : Gains made u place f) : Failed t (u.erase place) p.cwd p.parent := by
  have hsame : ∀ l, (u.erase place).node? l = made.node? l := by
    intro l
    by_cases hl : l = place
    · subst hl
      rw [u.node?_erase_self (ne_root_of_free hgains.free), hgains.free]
    · rw [u.node?_erase_ne hl, hgains.same l hl]
  exact ⟨h.furnished.congr hsame, fun hway l => (hsame l).trans (h.same hway l)⟩

/-- A temporary file that is moved is the document, and leaves its own place free again. -/
theorem placed_of_rename {made : Tree} (hgains : Gains made u place f)
    (hlent : Lent u temporary place f) (hcontent : f.content = bytesOf e.text)
    (h : rename u cwd temporary path = .ok t') : Placed made t' cwd path e := by
  obtain ⟨new, hnew, hdirectory, rfl⟩ := rename_spec (hlent.leads cwd) hlent.file h
  have hfile := (u.erase place).node?_put_self (.file f) (ne_root hdirectory)
  refine ⟨new, f, resolve_keeps hgains.keeps_back hnew, ?_, hfile, hcontent, fun l hl => ?_⟩
  · by_cases hsame : new = place
    · rw [hsame, hgains.free]
      nofun
    · rwa [hgains.same new hsame] at hdirectory
  · rw [Tree.node?_put_ne _ _ hl]
    by_cases hsame : l = place
    · rw [hsame, u.node?_erase_self (ne_root_of_free hgains.free), hgains.free]
    · rw [u.node?_erase_ne hsame, hgains.same l hsame]

variable (hwork : ∀ e outcome, p.work.closed e outcome = .done (.stored outcome))
include hwork

/-- An access brings a process that stores from one stage to the next, whatever is refused. -/
theorem stage_advance (m : Moment) (h : Stage p t e u phase) :
    Stage p t e (advance p m u phase).1 (advance p m u phase).2 := by
  cases h with
  | preparing =>
    simp only [advance, hwork]
    split
    · split
      · next made hmade =>
        have hprepared : prepared t p.cwd p.path = made := by rw [prepared_eq, hmade, madeSoFar]
        dsimp only
        rw [← hprepared]
        exact .creating
      · next cause made hmade =>
        have hfailed : Failed t (madeSoFar (createDirectories t p.cwd p.parent)) p.cwd p.parent :=
          failed_of_createDirectories t p.cwd (.inl .self)
        rw [hmade] at hfailed
        exact .failed hfailed
    · next r hrefused =>
      dsimp only
      exact .failed (failed_of_createDirectories t p.cwd (outer_outward (r.progress + 1) p.parent))
  | creating =>
    simp only [advance, hwork]
    split
    · split
      · next temporary made hmade =>
        obtain ⟨place, f, hgains, hlent⟩ := lent_of_createTemporary hmade
        exact .filling hgains hlent
      · dsimp only
        exact .failed failed_prepared
    · dsimp only
      exact .failed failed_prepared
  | @filling _ place f temporary hgains hlent =>
    have hkeeps : ∀ g, Keeps u (u.put place (.file g)) := keeps_put_file (.inr ⟨f, hgains.file⟩)
    have hnext : ∀ g, Lent (u.put place (.file g)) temporary place g :=
      fun g => hlent.of_keeps (hkeeps g) (hgains.put_again g).file
    simp only [advance, hlent.writeFile_eq]
    split
    · refine .moving (hgains.put_again _) (hnext _) ?_
      dsimp only
    · exact .dropping (hgains.put_again _) (hnext _)
  | moving hgains hlent hcontent =>
    simp only [advance, hwork]
    split
    · split
      · next hrename =>
        dsimp only
        exact .stored (placed_of_rename hgains hlent hcontent hrename)
      · exact .dropping hgains hlent
    · exact .dropping hgains hlent
  | dropping hgains hlent =>
    simp only [advance, hwork, hlent.discard_eq]
    exact .failed (failed_prepared.of_gains hgains)
  | failed h => exact .failed h
  | stored h => exact .stored h

theorem stage_alone (moments : List Moment) (h : Stage p t e u phase) :
    Stage p t e (alone p moments u phase).1 (alone p moments u phase).2 := by
  induction moments generalizing u phase with
  | nil => exact h
  | cons m moments ih => exact ih (stage_advance hwork m h)

omit hwork

/-! ## A whole store -/

/-- Storing comes to an outcome, whatever is refused on the way. -/
def Stores (t : Tree) (cwd : Location) (directory model prompt : String) (entry : Entry)
    (outcome : Except IoError Unit) (t' : Tree) : Prop :=
  ∃ moments, alone ⟨cwd, directory, .store model prompt entry⟩ moments t (.preparing entry) =
    (t', .done (.stored outcome))

/-- Storing that is refused nothing is one way of it. -/
theorem stores_of_store
    (h : store t cwd now names (filePath directory model prompt) entry = (outcome, t')) :
    Stores t cwd directory model prompt entry outcome t' := by
  have ask : Provider.Query → Except Failure Provider.Completion := fun _ => .ok ⟨"", none⟩
  refine ⟨List.replicate 8 ⟨now, names, ask, none⟩, ?_⟩
  rw [store_eq_alone rfl, h]

theorem Stores.stage (h : Stores t cwd directory model prompt entry outcome t') :
    Stage ⟨cwd, directory, .store model prompt entry⟩ t entry t' (.done (.stored outcome)) := by
  obtain ⟨moments, halone⟩ := h
  have hstage := stage_alone (p := ⟨cwd, directory, .store model prompt entry⟩) (fun _ _ => rfl)
    moments (.preparing (t := t) (e := entry))
  rw [halone] at hstage
  exact hstage

/-- Where the path of a key leads somewhere, its outer paths lead to directories. -/
theorem walkable_of_filePath {outer : String}
    (hway : resolve t cwd false (filePath directory model prompt) = .ok loc)
    (houter : Outer ((Path.parent? (filePath directory model prompt)).getD "") outer) :
    Walkable t cwd outer := by
  obtain ⟨parent, hparent⟩ := exists_parent_join directory
  have hparent := hparent _ (plain_fileName model prompt)
  obtain ⟨-, -, d, hreach, -⟩ := resolve_filePath.1 hway
  rw [filePath, hparent, Option.getD_some] at houter
  exact (walkable_of_reach (plain_fileName model prompt) hreach hparent).outer houter

/-- Where the path of a key led somewhere, a failure leaves everything as it was. -/
theorem Failed.same_of_resolve
    (h : Failed t u cwd ((Path.parent? (filePath directory model prompt)).getD ""))
    (hway : resolve t cwd false (filePath directory model prompt) = .ok loc) (l : Location) :
    u.node? l = t.node? l := by
  exact h.same (walkable_of_filePath hway .self) l

/-- A document lies where its path leads afterwards, unless its way led through what it replaced. -/
theorem Placed.at_path {made : Tree} (h : Placed made u cwd path e)
    (hdirect : Direct made cwd path) :
    ∃ loc f, resolve made cwd false path = .ok loc ∧ resolve u cwd false path = .ok loc ∧
      u.node? loc = some (.file f) ∧ f.content = bytesOf e.text ∧
      made.node? loc ≠ some .directory ∧
      ∀ l, l ≠ loc → u.node? l = made.node? l := by
  obtain ⟨loc, f, hloc, hdirectory, hfile, hcontent, hsame⟩ := h
  have hkeeps := erase_keeps (ne_root hdirectory) hsame
  exact ⟨loc, f, hloc, resolve_keeps hkeeps (hdirect loc hloc), hfile, hcontent, hdirectory, hsame⟩

theorem fileAt_of_keeps (hk : Keeps t t') (hfiles : ∀ l f, t.node? l = some (.file f) →
    t'.node? l = some (.file f)) (h : fileAt t cwd path = some f) : fileAt t' cwd path = some f := by
  obtain ⟨loc, hstat⟩ := fileAt_eq_some h
  obtain ⟨hloc, hfile⟩ := stat_iff.1 hstat
  have hfile' := hfiles loc f hfile
  have hnolink : ∀ target, t'.node? loc ≠ some (.link target) := by
    intro target hnode
    cases hfile'.symm.trans hnode
  rw [fileAt, stat_iff.2 ⟨resolve_true_keeps hk hnolink hloc, hfile'⟩]

/-- Trees with the same at every place have the same file at every path. -/
theorem fileAt_of_same (h : ∀ l, u.node? l = t.node? l) (cwd : Location) (path : String) :
    fileAt u cwd path = fileAt t cwd path := by
  have hkeeps : Keeps t u := ⟨fun hnode => (h _).trans hnode, fun hnode => (h _).trans hnode⟩
  have hkeeps' : Keeps u t :=
    ⟨fun hnode => (h _).symm.trans hnode, fun hnode => (h _).symm.trans hnode⟩
  refine Option.ext fun f => ⟨fun hfile => ?_, fun hfile => ?_⟩
  · exact fileAt_of_keeps hkeeps' (fun l f hnode => (h l).symm.trans hnode) hfile
  · exact fileAt_of_keeps hkeeps (fun l f hnode => (h l).trans hnode) hfile

/-- What storing leaves. A failure leaves everything that was there, every path as it led and every
file as it was; what is new are directories that were missing on the way, and none where the path
of the key led somewhere. A success leaves the document where the path of the key leads, in its
directory, in place of what was there; besides, the directories on the way, and nothing else. -/
theorem store_is_all_or_nothing
    (h : store t cwd now names (filePath directory model prompt) entry = (outcome, t') ∨
      Stores t cwd directory model prompt entry outcome t') :
    let path := filePath directory model prompt
    let parent := (Path.parent? path).getD ""
    (∀ cause, outcome = .error cause →
      Furnished t t' cwd parent ∧
      (∀ l node, t.node? l = some node → t'.node? l = some node) ∧
      (∀ other l, resolve t cwd false other = .ok l → resolve t' cwd false other = .ok l) ∧
      (∀ other f, fileAt t cwd other = some f → fileAt t' cwd other = some f) ∧
      ∀ loc, resolve t cwd false path = .ok loc →
        (∀ l, t'.node? l = t.node? l) ∧
          ∀ later limit, (lookup t' cwd later limit path).1 = (lookup t cwd later limit path).1) ∧
    (outcome = .ok () → Direct (prepared t cwd path) cwd path →
      ∃ loc f, resolve (prepared t cwd path) cwd false path = .ok loc ∧
        resolve t' cwd false path = .ok loc ∧ t'.node? loc = some (.file f) ∧
        f.content = bytesOf entry.text ∧ t.node? loc ≠ some .directory ∧
        (∀ outer, Outer parent outer → Walkable t' cwd outer) ∧
        Furnished t (prepared t cwd path) cwd parent ∧
        ∀ l, l ≠ loc → t'.node? l = (prepared t cwd path).node? l) := by
  intro path parent
  have hstage := (h.elim stores_of_store id).stage
  refine ⟨?_, ?_⟩
  · rintro cause rfl
    cases hstage with
    | failed hfailed =>
      have hgrows := hfailed.furnished.grows
      refine ⟨hfailed.furnished, fun l node hnode => hgrows.node hnode,
        fun other l hl => resolve_keeps hgrows.keeps hl,
        fun other f hfile => fileAt_of_keeps hgrows.keeps (fun l f hnode => hgrows.node hnode) hfile,
        fun loc hloc => ?_⟩
      have hsame := hfailed.same_of_resolve hloc
      refine ⟨hsame, fun later limit => ?_⟩
      rw [lookup_fst, lookup_fst, fileAt_of_same hsame]
  · rintro rfl hdirect
    cases hstage with
    | stored hplaced =>
      obtain ⟨loc, f, hled, hloc, hfile, hcontent, hdirectory, hsame⟩ := hplaced.at_path hdirect
      refine ⟨loc, f, hled, hloc, hfile, hcontent, fun hd => ?_,
        fun outer houter => walkable_of_filePath hloc houter,
        furnished_of_createDirectories t cwd parent, hsame⟩
      exact hdirectory ((grows_prepared t cwd path).node hd)

/-- A moment at which a store may be refused. -/
def encounter (refusal : Option Refusal) : Moment :=
  ⟨7, ["t"], fun _ => .ok ⟨"", none⟩, refusal⟩

/-- Three bytes of the document can be written, and then no more. -/
def cramped : List Moment :=
  [encounter none, encounter none, encounter (some ⟨.system .permissionDenied, 3⟩), encounter none]

def newEntry : Entry := ⟨"m", "p", "new", timestamp 7⟩

theorem stores_cramped :
    Stores settled [] "cache" "m" "p" newEntry (.error (.system .permissionDenied))
      (alone ⟨[], "cache", .store "m" "p" newEntry⟩ cramped settled (.preparing newEntry)).1 :=
  ⟨cramped, Prod.ext (by dsimp only) (by decide +kernel)⟩

/-- A document that cannot be written leaves the old one; one that can replaces the link that lay at
its path, and not what the link led to. -/
theorem a_link_is_replaced :
    (let path := filePath "cache" "m" "p"
     let failed :=
      (alone ⟨[], "cache", .store "m" "p" newEntry⟩ cramped settled (.preparing newEntry)).1
     (lookup failed [] 9 0 path).1 = some "old" ∧
      failed.node? [".llmexec-t.tmp", "cache"] = none) ∧
    (let path := filePath "cache" "m" "p"
     let stored := (store pointed [] 7 ["t"] path newEntry).2
     (∃ f, stored.node? ["p.m.dc52f28a8a.json", "cache"] = some (.file f) ∧
        f.content = bytesOf newEntry.text) ∧
      stored.node? ["old.json"] = pointed.node? ["old.json"]) := by
  constructor
  · obtain ⟨hfailed, -⟩ := @store_is_all_or_nothing settled _ [] newEntry "cache" "m" "p" _ [] 7
      (.inr stores_cramped)
    obtain ⟨-, -, -, -, hold⟩ := hfailed _ rfl
    have hway : resolve settled [] false (filePath "cache" "m" "p") =
        .ok ["p.m.dc52f28a8a.json", "cache"] := by decide +kernel
    obtain ⟨hsame, hlookup⟩ := hold _ hway
    have hbefore : (lookup settled [] 9 0 (filePath "cache" "m" "p")).1 = some "old" := by
      decide +kernel
    exact ⟨(hlookup 9 0).trans hbefore, hsame _⟩
  · have hok : (store pointed [] 7 ["t"] (filePath "cache" "m" "p") newEntry).1 = .ok () := by
      decide +kernel
    have hway : resolve (prepared pointed [] (filePath "cache" "m" "p")) [] false
        (filePath "cache" "m" "p") = .ok ["p.m.dc52f28a8a.json", "cache"] := by decide +kernel
    have hdirect := direct_of_resolve hway (by decide +kernel)
    obtain ⟨-, hstored⟩ := store_is_all_or_nothing (.inl (store_eq hok))
    obtain ⟨loc, f, hled, -, hfile, hcontent, -, -, -, hsame⟩ := hstored rfl hdirect
    rw [hway] at hled
    cases hled
    refine ⟨⟨f, hfile, hcontent⟩, ?_⟩
    refine (hsame ["old.json"] (by decide)).trans ?_
    decide +kernel

/-- The way to a key that leads through the link at its own path: what is stored there replaces the
link, and then the path leads nowhere, and its directory is none. -/
theorem a_document_cuts_off_its_own_path :
    let path := filePath "cache/p.m.dc52f28a8a.json/.." "m" "p"
    let stored := store crossed [] 0 ["t"] path ⟨"m", "p", "x", timestamp 0⟩
    stored.1 = .ok () ∧ fileAt stored.2 [] path = none ∧
      isDirectory stored.2 [] ((Path.parent? path).getD "") = false := by
  simp only [filePath, fileName_m_p]
  decide +kernel

end PromptRunner.Sharing
