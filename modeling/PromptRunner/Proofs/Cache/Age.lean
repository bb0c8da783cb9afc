import PromptRunner.Proofs.Cache.Held
import PromptRunner.Proofs.Files.Contents

/-!
# The age of an answer

Looking an answer up asks two questions of the file that its path names. Its age, which is counted
from when the file was last written, decides whether the file may be used; what the file holds
decides what is found in it. A file that is too old is removed without a look into it, and removing
it means to remove what lies at the path itself: the file, or the link that leads to it. Nothing
else ever changes.

So a path that names a file always has something at its own place that can be removed, and how old
an answer is said to be inside of the file does not matter.
-/

namespace PromptRunner.Cache

open PromptRunner.Files PromptRunner.Text

variable {t t' : Tree} {cwd loc place : Location} {path : String} {now limit larger : Int}
  {f : RegularFile} {node : Node} {content : Bytes} {answer : String}

/-! ## What lies at the path of a file -/

/-- A path that names a file has the file or a link at its own place. -/
theorem place_of_file (h : fileAt t cwd path = some f) :
    ∃ place node, resolve t cwd false path = .ok place ∧ t.node? place = some node ∧
      node ≠ .directory := by
  obtain ⟨loc, hstat⟩ := fileAt_eq_some h
  obtain ⟨hloc, hfile⟩ := stat_iff.1 hstat
  obtain ⟨place, hplace⟩ := resolve_false hloc
  by_cases hlink : ∃ target, t.node? place = some (.link target)
  · obtain ⟨target, hnode⟩ := hlink
    exact ⟨place, .link target, hplace, hnode, nofun⟩
  · -- no link lies there, so that following links leads to the same place
    have hsame := resolve_true (fun target hnode => hlink ⟨target, hnode⟩) hplace
    rw [hloc] at hsame
    cases hsame
    exact ⟨loc, .file f, hplace, hfile, nofun⟩

theorem ne_root_of_node (hnode : t.node? place = some node) (hdirectory : node ≠ .directory) :
    place ≠ [] := by
  refine ne_root (t := t) fun h => hdirectory ?_
  exact Option.some.inj (hnode.symm.trans h)

theorem discard_eq (hplace : resolve t cwd false path = .ok place)
    (hnode : t.node? place = some node) (hdirectory : node ≠ .directory) :
    discard t cwd path = t.erase place := by
  rw [discard, removeFile, hplace]
  simp only [hnode]

/-! ## What is found and what is removed -/

/-- A file that a path names is too old for a limit. -/
def Old (t : Tree) (cwd : Location) (now limit : Int) (path : String) : Prop :=
  0 < limit ∧ ∃ f, fileAt t cwd path = some f ∧ limit * second ≤ ageOf now f.modified

/-- Some bytes are a document with an answer in it. -/
def Decodes (content : Bytes) (answer : String) : Prop :=
  ∃ text e, stringOf? content = some text ∧ Entry.parse text = .ok e ∧ e.content = answer

theorem answerIn_iff : answerIn content = some answer ↔ Decodes content answer := by
  unfold answerIn Decodes
  constructor
  · intro h
    split at h
    · cases h
    · next text htext =>
      split at h
      · next e hparse =>
        cases h
        exact ⟨text, e, htext, hparse, rfl⟩
      · cases h
  · rintro ⟨text, e, htext, hparse, rfl⟩
    simp only [htext, hparse]

theorem old_iff (h : fileAt t cwd path = some f) :
    Old t cwd now limit path ↔ isExpired now limit f.modified = true := by
  unfold Old isExpired
  simp only [h, Option.some.injEq, exists_eq_left', Bool.and_eq_true, decide_eq_true_eq]

theorem answerOf_iff :
    answerOf now limit f = some answer ↔
      0 ≤ limit ∧ Decodes f.content answer ∧ Young now limit f.modified := by
  unfold answerOf
  split
  · next hout =>
    refine ⟨nofun, fun ⟨hlimit, _, hyoung⟩ => ?_⟩
    rcases hout with hnegative | hold
    · exact absurd hlimit (Int.not_le.2 hnegative)
    · exact absurd hyoung ((isExpired_iff hlimit).1 hold)
  · next hin =>
    obtain ⟨hlimit, hfresh⟩ := not_or.1 hin
    have hlimit : 0 ≤ limit := Int.not_lt.1 hlimit
    rw [isExpired_iff hlimit, not_not] at hfresh
    rw [answerIn_iff]
    exact ⟨fun hanswer => ⟨hlimit, hanswer, hfresh⟩, fun h => h.2.1⟩

theorem lookup_eq_some :
    (lookup t cwd now limit path).1 = some answer ↔
      0 ≤ limit ∧ ∃ f, fileAt t cwd path = some f ∧ Decodes f.content answer ∧
        Young now limit f.modified := by
  rw [lookup_fst, Option.bind_eq_some_iff]
  simp only [answerOf_iff]
  constructor
  · rintro ⟨f, hfile, hlimit, hanswer, hyoung⟩
    exact ⟨hlimit, f, hfile, hanswer, hyoung⟩
  · rintro ⟨hlimit, f, hfile, hanswer, hyoung⟩
    exact ⟨f, hfile, hlimit, hanswer, hyoung⟩

theorem lookup_of_not_old (h : ¬ Old t cwd now limit path) :
    (lookup t cwd now limit path).2 = t := by
  cases hfile : fileAt t cwd path with
  | none => rw [lookup_of_no_file hfile]
  | some f =>
    rw [old_iff hfile] at h
    rw [lookup_of_file hfile, if_neg fun hexpired => h hexpired.2]

/-- Looking up an old file empties the place of the path, and changes nothing else. -/
theorem lookup_of_old (h : Old t cwd now limit path) :
    ∃ place node, resolve t cwd false path = .ok place ∧ t.node? place = some node ∧
      node ≠ .directory ∧ (lookup t cwd now limit path).2 = t.erase place := by
  obtain ⟨hlimit, f, hfile, -⟩ := id h
  obtain ⟨place, node, hplace, hnode, hdirectory⟩ := place_of_file hfile
  refine ⟨place, node, hplace, hnode, hdirectory, ?_⟩
  rw [lookup_of_file hfile, if_pos ⟨Int.le_of_lt hlimit, (old_iff hfile).1 h⟩,
    discard_eq hplace hnode hdirectory]

/-- What looking up empties is the place of a file or of a link. -/
theorem emptied_of_old (h : Old t cwd now limit path)
    (hplace : resolve t cwd false path = .ok place) :
    (lookup t cwd now limit path).2.node? place = none ∧
      ((∃ f, t.node? place = some (.file f)) ∨
        ∃ target, t.node? place = some (.link target)) := by
  obtain ⟨removed, node, hremoved, hnode, hdirectory, hlooked⟩ := lookup_of_old h
  rw [hplace] at hremoved
  cases hremoved
  rw [hlooked, t.node?_erase_self (ne_root_of_node hnode hdirectory)]
  cases node with
  | file f => exact ⟨rfl, .inl ⟨f, hnode⟩⟩
  | directory => exact absurd rfl hdirectory
  | link target => exact ⟨rfl, .inr ⟨target, hnode⟩⟩

theorem lookup_changes_iff :
    (lookup t cwd now limit path).2.node? place ≠ t.node? place ↔
      Old t cwd now limit path ∧ resolve t cwd false path = .ok place := by
  by_cases hold : Old t cwd now limit path
  · obtain ⟨removed, node, hremoved, hnode, hdirectory, hlooked⟩ := lookup_of_old hold
    have hroot := ne_root_of_node hnode hdirectory
    rw [hlooked, hremoved]
    by_cases hsame : place = removed
    · subst hsame
      rw [t.node?_erase_self hroot, hnode]
      exact ⟨fun _ => ⟨hold, rfl⟩, fun _ => nofun⟩
    · rw [t.node?_erase_ne hsame]
      exact ⟨fun h => absurd rfl h, fun h => absurd (Except.ok.inj h.2).symm hsame⟩
  · rw [lookup_of_not_old hold]
    exact ⟨fun h => absurd rfl h, fun h => absurd h.1 hold⟩

/-! ## The content of a file -/

/-- A tree in which the file that a path names holds something else. -/
theorem fileAt_rewritten (h : stat t cwd path = .ok (loc, .file f)) (content : Bytes) :
    fileAt (t.put loc (.file { f with content := content })) cwd path =
      some { f with content := content } := by
  obtain ⟨hloc, hfile⟩ := stat_iff.1 h
  have hput : (t.put loc (.file { f with content := content })).node? loc =
      some (.file { f with content := content }) := t.node?_put_self _ (ne_root_of_file hfile)
  have hkeeps := keeps_put_file (.inr ⟨f, hfile⟩) { f with content := content }
  have hway := resolve_true_keeps hkeeps (by rw [hput]; nofun) hloc
  rw [fileAt, stat_iff.2 ⟨hway, hput⟩]

theorem old_rewritten (h : stat t cwd path = .ok (loc, .file f)) (content : Bytes) :
    Old (t.put loc (.file { f with content := content })) cwd now limit path ↔
      Old t cwd now limit path := by
  have hfile : fileAt t cwd path = some f := by rw [fileAt, h]
  rw [old_iff hfile, old_iff (fileAt_rewritten h content)]

/-- Paths lead where they led when a file holds something else. -/
theorem resolve_rewritten (h : stat t cwd path = .ok (loc, .file f)) (content : Bytes) :
    resolve (t.put loc (.file { f with content := content })) cwd false path = .ok place ↔
      resolve t cwd false path = .ok place := by
  obtain ⟨-, hfile⟩ := stat_iff.1 h
  have hkeeps := keeps_put_file (.inr ⟨f, hfile⟩) { f with content := content }
  obtain ⟨own, -, hown, -, -⟩ := place_of_file (show fileAt t cwd path = some f by rw [fileAt, h])
  rw [resolve_keeps hkeeps hown, hown]

/-! ## Age decides -/

theorem Young.mono (hpositive : 0 < limit) (hlarger : larger = 0 ∨ limit ≤ larger) {modified : Int}
    (h : Young now limit modified) : Young now larger modified := by
  unfold Young second at h ⊢
  omega

/-- Looking up finds the answer in the file that a path names if the file is young enough, and
removes what lies at the path if the file is too old; nothing else changes. A longer limit finds
what a shorter one does, and all that matters of an entry is its answer. -/
theorem lookup_decides_by_age (t : Tree) (cwd : Location) (now limit : Int) (path : String) :
    (limit < 0 → (lookup t cwd now limit path).1 = none) ∧
    (∀ answer, (lookup t cwd now limit path).1 = some answer ↔
      0 ≤ limit ∧ ∃ f, fileAt t cwd path = some f ∧
        (∃ text e, stringOf? f.content = some text ∧ Entry.parse text = .ok e ∧
          e.content = answer) ∧
        (limit = 0 ∨ ageOf now f.modified < limit * second)) ∧
    (∀ place, (lookup t cwd now limit path).2.node? place ≠ t.node? place ↔
      (0 < limit ∧ ∃ f, fileAt t cwd path = some f ∧
        limit * second ≤ ageOf now f.modified) ∧
      resolve t cwd false path = .ok place) ∧
    (∀ place, (lookup t cwd now limit path).2.node? place ≠ t.node? place →
      (lookup t cwd now limit path).2.node? place = none ∧
        ((∃ f, t.node? place = some (.file f)) ∨
          ∃ target, t.node? place = some (.link target))) ∧
    (∀ answer larger, 0 < limit → larger = 0 ∨ limit ≤ larger →
      (lookup t cwd now limit path).1 = some answer →
      (lookup t cwd now larger path).1 = some answer) ∧
    ∀ loc f content, stat t cwd path = .ok (loc, .file f) →
      let t' := t.put loc (.file { f with content := content })
      (∀ place, (lookup t' cwd now limit path).2.node? place ≠ t'.node? place ↔
        (lookup t cwd now limit path).2.node? place ≠ t.node? place) ∧
      ∀ text e text' e', stringOf? f.content = some text → Entry.parse text = .ok e →
        stringOf? content = some text' → Entry.parse text' = .ok e' → e.content = e'.content →
        (lookup t' cwd now limit path).1 = (lookup t cwd now limit path).1 := by
  refine ⟨fun hnegative => ?_, fun answer => lookup_eq_some, fun place => lookup_changes_iff,
    fun place hchange => ?_, fun answer larger hpositive hlarger hfound => ?_,
    fun loc f content hstat => ⟨fun place => ?_, fun text e text' e' ht he ht' he' hsame => ?_⟩⟩
  · rw [lookup, glance, if_pos hnegative]
  · obtain ⟨hold, hplace⟩ := lookup_changes_iff.1 hchange
    exact emptied_of_old hold hplace
  · obtain ⟨-, f, hfile, hanswer, hyoung⟩ := lookup_eq_some.1 hfound
    have hnonneg : 0 ≤ larger := by omega
    exact lookup_eq_some.2 ⟨hnonneg, f, hfile, hanswer, hyoung.mono hpositive hlarger⟩
  · rw [lookup_changes_iff, lookup_changes_iff, old_rewritten hstat, resolve_rewritten hstat]
  · have hfile : fileAt t cwd path = some f := by rw [fileAt, hstat]
    have hanswer : answerIn content = answerIn f.content := by
      rw [answerIn_iff.2 ⟨text, e, ht, he, hsame⟩, answerIn_iff.2 ⟨text', e', ht', he', rfl⟩]
    rw [lookup_fst, lookup_fst, fileAt_rewritten hstat, hfile, Option.bind_some, Option.bind_some,
      answerOf, answerOf, hanswer]

/-- A key whose path is a link to a document, which was written at the beginning of time. -/
def pointed : Tree :=
  ⟨[(["old.json"], .file ⟨bytesOf (Entry.mk "m" "p" "old" (timestamp 0)).text, 0, false⟩),
    (["cache"], .directory), (["p.m.dc52f28a8a.json", "cache"], .link "../old.json")]⟩

/-- As soon as the document is as old as the limit, the link to it is removed, and the document
stays; under a longer limit it is found, and so it is without one. -/
theorem an_old_link_is_removed :
    let path := "cache/p.m.dc52f28a8a.json"
    let looked := lookup pointed [] (10 * second) 10 path
    looked.1 = none ∧ looked.2.node? ["p.m.dc52f28a8a.json", "cache"] = none ∧
      looked.2.node? ["old.json"] = pointed.node? ["old.json"] ∧
      (lookup pointed [] (10 * second) 0 path).1 = some "old" := by
  intro path looked
  have hway : resolve pointed [] false path = .ok ["p.m.dc52f28a8a.json", "cache"] := by
    decide
  obtain ⟨f, hfile, hmodified⟩ : ∃ f, fileAt pointed [] path = some f ∧ f.modified = 0 :=
    ⟨⟨bytesOf (Entry.mk "m" "p" "old" (timestamp 0)).text, 0, false⟩, by decide +kernel, rfl⟩
  have hold : 10 * second ≤ ageOf (10 * second) f.modified := by
    rw [hmodified]
    decide
  obtain ⟨-, hfound, hchanges, hemptied, -, -⟩ :=
    lookup_decides_by_age pointed [] (10 * second) 10 path
  obtain ⟨-, -, -, -, hlarger, -⟩ := lookup_decides_by_age pointed [] (10 * second) 11 path
  refine ⟨Option.eq_none_iff_forall_ne_some.2 fun answer hanswer => ?_, ?_, ?_, ?_⟩
  · obtain ⟨-, g, hg, -, hyoung⟩ := (hfound answer).1 hanswer
    rw [hfile] at hg
    cases hg
    exact hyoung.elim (by decide) (Int.not_lt.2 hold)
  · exact (hemptied _ ((hchanges _).2 ⟨⟨by decide, f, hfile, hold⟩, hway⟩)).1
  · by_contra hchange
    have hplace := ((hchanges _).1 hchange).2
    rw [hway] at hplace
    exact absurd hplace (by decide)
  · exact hlarger "old" 0 (by decide) (.inl rfl) (by decide +kernel)

end PromptRunner.Cache
