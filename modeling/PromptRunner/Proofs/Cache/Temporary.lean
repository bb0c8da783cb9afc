import PromptRunner.Proofs.Cache.Keys
import PromptRunner.Proofs.Cache.Storing
import PromptRunner.Proofs.Files.Contents

/-!
# A file under a temporary name

Whoever makes a temporary file has an absolute path that leads to it from everywhere, until the file
is moved or removed: nothing that others do to a tree, as long as its directories and links stay,
leads that path astray. Its name ends as no name of a key does, so that it is never taken for an
answer.
-/

namespace PromptRunner.Cache

open PromptRunner.Files PromptRunner.Text

variable {t t' : Tree} {cwd place : Location} {temporary path : String} {now : Int}
  {f g : RegularFile}

/-- A file that was made under a temporary name, and the path that leads to it from everywhere. -/
structure Lent (t : Tree) (temporary : String) (place : Location) (f : RegularFile) : Prop where
  ending : ∃ front, temporary = front ++ ".tmp"
  leads : ∀ cwd, resolve t cwd false temporary = .ok place
  file : t.node? place = some (.file f)

/-! ## Names -/

/-- The last piece of a text ends as the text does. -/
theorem cutAt_append_ending {sep : Char} (a : List Char) {b : List Char} (h : sep ∉ b) :
    ∃ before piece, cutAt sep (a ++ b) = before ++ [piece ++ b] := by
  induction a with
  | nil => exact ⟨[], [], cutAt_of_notMem h⟩
  | cons c a ih =>
    obtain ⟨before, piece, hcut⟩ := ih
    rw [List.cons_append, cutAt, hcut]
    split
    · exact ⟨[] :: before, piece, rfl⟩
    · cases before with
      | nil => exact ⟨[], c :: piece, rfl⟩
      | cons first before => exact ⟨(c :: first) :: before, piece, rfl⟩

theorem stepOf_temporary (front : List Char) :
    Path.stepOf (front ++ ".tmp".toList) = .into (String.ofList (front ++ ".tmp".toList)) := by
  have hlength : 4 ≤ (front ++ ".tmp".toList).length := by
    rw [List.length_append]
    exact Nat.le_add_left 4 _
  have hnil : front ++ ".tmp".toList ≠ [] := by
    intro h
    rw [h] at hlength
    exact absurd hlength (by decide)
  have hdot : front ++ ".tmp".toList ≠ ['.'] := by
    intro h
    rw [h] at hlength
    exact absurd hlength (by decide)
  have hup : front ++ ".tmp".toList ≠ ['.', '.'] := by
    intro h
    rw [h] at hlength
    exact absurd hlength (by decide)
  rw [Path.stepOf, Path.isIdle, decide_eq_false hnil, decide_eq_false hdot, Bool.or_self,
    if_neg Bool.false_ne_true, if_neg hup]

/-- A path that ends as a temporary name leads to a name with that end. -/
theorem place_of_ending (hend : ∃ front, temporary = front ++ ".tmp")
    (h : resolve t cwd false temporary = .ok place) :
    ∃ front d, place = String.ofList (front ++ ".tmp".toList) :: d := by
  obtain ⟨front, rfl⟩ := hend
  obtain ⟨before, piece, hcut⟩ := cutAt_append_ending front.toList
    (show '/' ∉ ".tmp".toList by decide)
  obtain ⟨-, hgo⟩ := resolve_iff.1 h
  have hsteps : Path.steps (front ++ ".tmp") = before.map Path.stepOf ++
      [.into (String.ofList (piece ++ ".tmp".toList))] := by
    rw [Path.steps, String.toList_append, Path.pieces, hcut, List.map_append, List.map_singleton,
      stepOf_temporary]
  rw [hsteps] at hgo
  obtain ⟨d, -, -, hplace⟩ := followSteps_append_into.1 hgo
  exact ⟨piece, d, hplace⟩

/-- Such a path never leads to a key. -/
theorem ne_key_of_ending (hend : ∃ front, temporary = front ++ ".tmp")
    (h : resolve t cwd false temporary = .ok place) (model prompt : String) (d : Location) :
    place ≠ fileName model prompt :: d := by
  obtain ⟨front, d', hplace⟩ := place_of_ending hend h
  rw [hplace]
  exact fun heq => fileName_ne_of_ending front (List.cons.inj heq).1.symm

namespace Lent

/-- A temporary file never has the name of a key. -/
theorem ne_key (h : Lent t temporary place f) (model prompt : String) (d : Location) :
    place ≠ fileName model prompt :: d := ne_key_of_ending h.ending (h.leads []) model prompt d

/-- The path leads where it led while directories and links stay. -/
theorem of_keeps (h : Lent t temporary place f) (hk : Keeps t t')
    (hfile : t'.node? place = some (.file g)) : Lent t' temporary place g :=
  ⟨h.ending, fun cwd => resolve_keeps hk (h.leads cwd), hfile⟩

/-- The path leads to one place. -/
theorem place_eq {place' : Location} (h : Lent t temporary place f) (hk : Keeps t t')
    (h' : Lent t' temporary place' g) : place' = place := by
  have hsame := resolve_keeps hk (h.leads [])
  rw [h'.leads []] at hsame
  exact Except.ok.inj hsame

theorem writeFile_eq (h : Lent t temporary place f) (cwd : Location) (now : Int)
    (content : Bytes) : writeFile t cwd now temporary content =
      .ok (t.put place (.file { f with content := content, modified := now })) := by
  obtain ⟨hpath, hslash⟩ := no_slash_behind h.ending
  exact writeFile_of_file now content hpath hslash (h.leads cwd) h.file

theorem discard_eq (h : Lent t temporary place f) (cwd : Location) :
    discard t cwd temporary = t.erase place := by
  rw [discard, removeFile_of_file (h.leads cwd) h.file]

end Lent

/-- A temporary file that was just made. -/
theorem lent_of_createTemporary {directory : String} {names : List String}
    (h : createTemporary t cwd now directory temporaryName names = .ok (temporary, t')) :
    ∃ place f, Gains t t' place f ∧ Lent t' temporary place f := by
  obtain ⟨hend, place, hplace, hgains⟩ := createTemporary_spec h
  exact ⟨place, _, hgains, hend, fun cwd => resolve_keeps hgains.keeps (hplace cwd), hgains.file⟩

end PromptRunner.Cache
