import PromptRunner.Proofs.Cache.Document
import PromptRunner.Proofs.Cache.Keys
import PromptRunner.Proofs.Cache.Lookup
import PromptRunner.Proofs.Cache.Storing
import PromptRunner.Proofs.Text.Bytes

/-!
# What was stored is found

An entry that was stored is found under its key, with the content it had, for as long as the limit
allows; and no other key of the directory notices. Two things can come between, and both are paths
that are led astray by links or by directories. The way to the directory may lead through what lies
at the key's own path, which storing replaces. And making a missing directory may open a way, out
of it again, to a directory that holds old answers.
-/

namespace PromptRunner.Cache

open PromptRunner.Files PromptRunner.Json PromptRunner.Text

variable {t t' : Tree} {cwd loc l : Location} {path directory model prompt : String} {now : Int}
  {names : List String} {entry : Entry}

/-- The way of a path does not lead through what lies at its end. -/
def Direct (t : Tree) (cwd : Location) (path : String) : Prop :=
  ∀ loc, resolve t cwd false path = .ok loc → resolve (t.erase loc) cwd false path = .ok loc

theorem direct_of_resolve (h : resolve t cwd false path = .ok loc)
    (h' : resolve (t.erase loc) cwd false path = .ok loc) : Direct t cwd path := by
  intro l hl
  rw [h] at hl
  cases hl
  exact h'

/-- Where no link lies at the end of a path, its way cannot lead through it. -/
theorem direct_of_no_link
    (h : ∀ loc target, resolve t cwd false path = .ok loc → t.node? loc ≠ some (.link target))
    (hdirectory : ∀ loc, resolve t cwd false path = .ok loc → t.node? loc ≠ some .directory) :
    Direct t cwd path := by
  intro loc hloc
  refine resolve_keeps ?_ hloc
  exact .of_except loc (fun _ hne => t.node?_erase_ne hne) (hdirectory loc hloc)
    fun target => h loc target hloc

/-- A path that leads to a file or to a free place is not led astray by storing there. -/
theorem direct_of_store
    (h : resolve t cwd false path = .ok loc ∧ ∀ target, t.node? loc ≠ some (.link target))
    (hstore : store t cwd now names path entry = (.ok (), t')) :
    Direct (prepared t cwd path) cwd path := by
  obtain ⟨loc', hloc', hdirectory, -, -⟩ := store_ok hstore
  have hgrows := grows_prepared t cwd path
  have hloc := resolve_keeps hgrows.keeps h.1
  rw [hloc] at hloc'
  cases hloc'
  refine direct_of_no_link (fun l target hl => ?_) (fun l hl => ?_)
  · rw [hloc] at hl
    cases hl
    rcases hgrows loc with hsame | ⟨-, hnew⟩
    · rw [hsame]
      exact h.2 target
    · rw [hnew]
      nofun
  · rw [hloc] at hl
    cases hl
    exact hdirectory

/-- A path does not end in a link, and making a directory opens no way from it to an old file. -/
structure Apart (t : Tree) (cwd : Location) (path other : String) : Prop where
  noLink : ∀ l target, resolve (prepared t cwd path) cwd false other = .ok l →
    t.node? l ≠ some (.link target)
  noNewWay : (∃ l, resolve t cwd false other = .ok l) ∨
    ∀ l, resolve (prepared t cwd path) cwd false other = .ok l → t.node? l = none

theorem store_eq {outcome : Except IoError Unit × Tree} (h : outcome.1 = .ok ()) :
    outcome = (.ok (), outcome.2) := Prod.ext h rfl

/-! ## The key itself -/

theorem answerIn_text (h : Finite64 entry.timestamp) :
    answerIn (bytesOf entry.text) = some entry.content := by
  obtain ⟨x, hx⟩ := Entry.parse_text h
  simp only [answerIn, stringOf?_bytesOf, hx]

theorem resolve_of_store (hdirect : Direct (prepared t cwd path) cwd path)
    (hstore : store t cwd now names path entry = (.ok (), t')) :
    ∃ loc, resolve t' cwd false path = .ok loc ∧
      t'.node? loc = some (.file ⟨bytesOf entry.text, now, false⟩) := by
  obtain ⟨loc, hloc, hdirectory, hfile, hsame⟩ := store_ok hstore
  have hkeeps := erase_keeps (ne_root hdirectory) hsame
  exact ⟨loc, resolve_keeps hkeeps (hdirect loc hloc), hfile⟩

theorem fileAt_of_store (hdirect : Direct (prepared t cwd path) cwd path)
    (hstore : store t cwd now names path entry = (.ok (), t')) :
    fileAt t' cwd path = some ⟨bytesOf entry.text, now, false⟩ := by
  obtain ⟨loc, hloc, hfile⟩ := resolve_of_store hdirect hstore
  exact fileAt_of_file hloc hfile

theorem readText_of_store (hdirect : Direct (prepared t cwd path) cwd path)
    (hstore : store t cwd now names path entry = (.ok (), t')) :
    Files.readText t' cwd path = .ok entry.text := by
  rw [readText_eq (fileAt_of_store hdirect hstore)]
  simp only [stringOf?_bytesOf]

/-- A stored entry is found while its file is young enough. -/
theorem lookup_of_store (hfinite : Finite64 entry.timestamp)
    (hdirect : Direct (prepared t cwd path) cwd path)
    (hstore : store t cwd now names path entry = (.ok (), t')) {later limit : Int}
    (hlimit : 0 ≤ limit) (hyoung : limit = 0 ∨ ageOf later now < limit * second) :
    (lookup t' cwd later limit path).1 = some entry.content := by
  have hvalid : ¬ (limit < 0 ∨ isExpired later limit now = true) := by
    rintro (hneg | hexpired)
    · omega
    · simp only [isExpired, Bool.and_eq_true, decide_eq_true_eq] at hexpired
      omega
  rw [lookup_fst, fileAt_of_store hdirect hstore, Option.bind_some, answerOf, if_neg hvalid,
    answerIn_text hfinite]

/-! ## Other keys of the directory -/

/-- Storing leaves the file of every other key of the directory as it was. -/
theorem fileAt_other_of_store {m p : String} (hname : fileName m p ≠ fileName model prompt)
    (hdirect : Direct (prepared t cwd (filePath directory model prompt)) cwd
      (filePath directory model prompt))
    (hapart : Apart t cwd (filePath directory model prompt) (filePath directory m p))
    (hstore : store t cwd now names (filePath directory model prompt) entry = (.ok (), t')) :
    fileAt t' cwd (filePath directory m p) = fileAt t cwd (filePath directory m p) := by
  obtain ⟨loc, hloc, hdirectory, hfile, hsame⟩ := store_ok hstore
  have hway := hdirect loc hloc
  have hgrows := grows_prepared t cwd (filePath directory model prompt)
  set made := prepared t cwd (filePath directory model prompt)
  -- what the two trees share is the tree with nothing at the key's place
  have hmade : Keeps (made.erase loc) made := erase_keeps (ne_root hdirectory) fun _ _ => rfl
  have hstored : Keeps (made.erase loc) t' := erase_keeps (ne_root hdirectory) hsame
  by_cases hleads : ∃ l, resolve made cwd false (filePath directory m p) = .ok l
  · obtain ⟨l, hl⟩ := hleads
    obtain ⟨herased, hne⟩ := resolve_sibling hname hmade hway hl
    have hlink := hapart.noLink l
    have hlink' : ∀ target, t'.node? l ≠ some (.link target) := by
      intro target hnode
      rw [hsame l hne] at hnode
      rcases hgrows l with hold | ⟨-, hnew⟩
      · exact hlink target hl (hold ▸ hnode)
      · rw [hnew] at hnode
        cases hnode
    have hafter : fileAt t' cwd (filePath directory m p) = fileOf (t.node? l) := by
      rw [fileAt_of_resolve hlink' (resolve_keeps hstored herased), hsame l hne,
        fileOf_of_grows hgrows]
    have hbefore : ∀ l', resolve t cwd false (filePath directory m p) = .ok l' →
        fileAt t cwd (filePath directory m p) = fileOf (t.node? l) := by
      intro l' hl'
      have heq := resolve_keeps hgrows.keeps hl'
      rw [hl] at heq
      cases heq
      exact fileAt_of_resolve (fun target => hlink target hl) hl'
    rw [hafter]
    by_cases hold : ∃ l', resolve t cwd false (filePath directory m p) = .ok l'
    · obtain ⟨l', hl'⟩ := hold
      exact (hbefore l' hl').symm
    · rcases hapart.noNewWay with hold' | hfree
      · exact absurd hold' hold
      · rw [hfree l hl, fileAt_of_no_way fun l' hl' => hold ⟨l', hl'⟩]
        rfl
  · rw [fileAt_of_no_way fun l hl => hleads ⟨l, ?_⟩, fileAt_of_no_way fun l hl => hleads ⟨l, ?_⟩]
    · exact resolve_keeps hgrows.keeps hl
    · exact resolve_keeps hmade (resolve_sibling hname hstored hway hl).1

/-- What storing an answer promises: it is found for as long as the limit allows, its document has
the model, the prompt and the content of the entry, and every other key of the directory finds what
it found before. -/
theorem stored_answer_is_found (hfinite : Finite64 entry.timestamp)
    (hdirect : Direct (prepared t cwd (filePath directory model prompt)) cwd
      (filePath directory model prompt))
    (hstore : store t cwd now names (filePath directory model prompt) entry = (.ok (), t')) :
    (∀ later limit, 0 ≤ limit → limit = 0 ∨ ageOf later now < limit * second →
      (lookup t' cwd later limit (filePath directory model prompt)).1 = some entry.content) ∧
    (∃ text read, Files.readText t' cwd (filePath directory model prompt) = .ok text ∧
      Entry.parse text = .ok read ∧ read.model = entry.model ∧ read.prompt = entry.prompt ∧
        read.content = entry.content) ∧
    ∀ m p, fileName m p ≠ fileName model prompt →
      Apart t cwd (filePath directory model prompt) (filePath directory m p) →
        ∀ later limit, (lookup t' cwd later limit (filePath directory m p)).1 =
          (lookup t cwd later limit (filePath directory m p)).1 := by
  refine ⟨fun later limit => lookup_of_store hfinite hdirect hstore, ?_, ?_⟩
  · obtain ⟨x, hx⟩ := Entry.parse_text hfinite
    exact ⟨entry.text, _, readText_of_store hdirect hstore, hx, rfl, rfl, rfl⟩
  · intro m p hname hapart later limit
    rw [lookup_fst, lookup_fst, fileAt_other_of_store hname hdirect hapart hstore]

/-- A first answer, in a directory that is made for it, and another key that has none yet. -/
theorem first_answer_is_found :
    let path := filePath "cache" "m" "p"
    let stored := (store .empty [] 7 ["t"] path ⟨"m", "p", "a \"b\"\n", timestamp 7⟩).2
    (lookup stored [] 9 1 path).1 = some "a \"b\"\n" ∧
      (lookup stored [] 9 1 (filePath "cache" "n" "q")).1 =
        (lookup .empty [] 9 1 (filePath "cache" "n" "q")).1 := by
  have hfinite : Finite64 (timestamp 7) := finite_timestamp 7
  have hway : resolve (prepared .empty [] (filePath "cache" "m" "p")) [] false
      (filePath "cache" "m" "p") = .ok [fileName "m" "p", "cache"] := by decide +kernel
  have hother : resolve (prepared .empty [] (filePath "cache" "m" "p")) [] false
      (filePath "cache" "n" "q") = .ok [fileName "n" "q", "cache"] := by decide +kernel
  have hok : (store .empty [] 7 ["t"] (filePath "cache" "m" "p")
      ⟨"m", "p", "a \"b\"\n", timestamp 7⟩).1 = .ok () := by decide +kernel
  have hfound := stored_answer_is_found hfinite (direct_of_resolve hway (by decide +kernel))
    (store_eq hok)
  have hempty : Tree.empty.node? [fileName "n" "q", "cache"] = none := rfl
  refine ⟨hfound.1 9 1 (by decide) (.inr (by decide)), ?_⟩
  refine hfound.2.2 "n" "q" (by decide +kernel) ⟨?_, .inr ?_⟩ 9 1
  · intro l target hl
    rw [hother] at hl
    cases hl
    rw [hempty]
    nofun
  · intro l hl
    rw [hother] at hl
    cases hl
    exact hempty

theorem fileName_m_p : fileName "m" "p" = "p.m.dc52f28a8a.json" := by decide +kernel

theorem fileName_other_q : fileName "other" "q" = "q.other.00e4181be3.json" := by decide +kernel

/-- A directory with a link to another one, under the name of a key. -/
def crossed : Tree :=
  ⟨[(["cache"], .directory), (["sub", "cache"], .directory),
    (["p.m.dc52f28a8a.json", "cache"], .link "sub")]⟩

/-- A directory with an old answer. -/
def settled : Tree :=
  ⟨[(["cache"], .directory), (["p.m.dc52f28a8a.json", "cache"],
    .file ⟨bytesOf (Entry.mk "m" "p" "old" (timestamp 0)).text, 0, false⟩)]⟩

/-- The way to a key leads through the link that storing under the key replaces; and a directory
that is missing until it is made hides an answer that is there. -/
theorem stored_answer_is_lost :
    (let path := filePath "cache/p.m.dc52f28a8a.json/.." "m" "p"
     let stored := store crossed [] 0 ["t"] path ⟨"m", "p", "x", timestamp 0⟩
     stored.1 = .ok () ∧ (lookup stored.2 [] 0 0 path).1 = none) ∧
    (let path := filePath "gone/../cache" "m" "p"
     let other := filePath "gone/../cache" "other" "q"
     let stored := store settled [] 0 ["t"] other ⟨"other", "q", "x", timestamp 0⟩
     stored.1 = .ok () ∧ (lookup settled [] 0 0 path).1 = none ∧
      (lookup stored.2 [] 0 0 path).1 = some "old") := by
  simp only [filePath, fileName_m_p, fileName_other_q]
  decide +kernel

end PromptRunner.Cache
