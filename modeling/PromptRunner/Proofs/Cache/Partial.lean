import PromptRunner.Proofs.Cache.Stored
import PromptRunner.Proofs.Generation
import PromptRunner.Proofs.Text.Pieces

/-!
# Documents that were cut short or written over

A file may hold less than the document of an entry, when writing it was interrupted, or more, when
it was written over a longer one. The bytes that are left need not even be a text: a cut may fall
inside a character. None of this is ever taken for an answer. The next step with the cache asks the
provider, and if its answer can be kept, the file holds a whole document again.
-/

namespace PromptRunner.Cache

open PromptRunner.Files PromptRunner.Json PromptRunner.Text PromptRunner.Generation

variable {t t' : Tree} {cwd loc : Location} {path directory model prompt : String} {now : Int}
  {entry : Entry} {bytes : Bytes}

/-- What is left of an entry's document: less of it, or all of it with more than blanks behind. -/
inductive Damaged (entry : Entry) : Bytes → Prop
  | cut {bytes : Bytes} : bytes <+: bytesOf entry.text → bytes ≠ bytesOf entry.text →
      Damaged entry bytes
  | overlong {extra : String} {c : Char} : c ∈ extra.toList → isSpace c = false →
      Damaged entry (bytesOf (entry.text ++ extra))

theorem answerIn_eq_none (h : ∀ text e, stringOf? bytes = some text → Entry.parse text ≠ .ok e) :
    answerIn bytes = none := by
  unfold answerIn
  split
  · rfl
  · next text htext =>
    split
    · next e he => exact absurd he (h text e htext)
    · rfl

theorem answerIn_damaged (hfinite : Finite64 entry.timestamp) (h : Damaged entry bytes) :
    answerIn bytes = none := by
  refine answerIn_eq_none fun text e htext => ?_
  cases h with
  | cut hfront hne =>
    obtain ⟨chars, hchars, rfl⟩ := Option.map_eq_some_iff.1 htext
    obtain ⟨⟨rest, hrest⟩, hbytes⟩ := decode?_prefix hfront hchars
    have hmore : rest ≠ [] := by
      rintro rfl
      rw [List.append_nil] at hrest
      exact hne (by rw [hbytes, hrest]; rfl)
    exact Entry.parse_beginning hfinite (by rw [String.toList_ofList, hrest]) hmore e
  | overlong hc hspace =>
    rw [stringOf?_bytesOf] at htext
    cases htext
    exact Entry.parse_overlong hfinite (String.toList_append) hc hspace e

theorem lookup_damaged (hfinite : Finite64 entry.timestamp) {f : RegularFile}
    (hdamaged : Damaged entry f.content) (hfile : fileAt t cwd path = some f) (limit : Int) :
    (lookup t cwd now limit path).1 = none := by
  rw [lookup_fst, hfile, Option.bind_some, answerOf, answerIn_damaged hfinite hdamaged, ite_self]

/-- A damaged document is never found, and a step that may use the cache asks instead, once. If its
answer can be kept, the document is whole again and the answer is found from then on. -/
theorem damaged_document_is_replaced (hfinite : Finite64 entry.timestamp) {f : RegularFile}
    (hdamaged : Damaged entry f.content)
    (hloc : resolve t cwd false (filePath directory model prompt) = .ok loc)
    (hfile : t.node? loc = some (.file f)) :
    (∀ now limit, (lookup t cwd now limit (filePath directory model prompt)).1 = none) ∧
    ∀ (ask : Ask) (s : Surroundings) (limit : Int), s.cwd = cwd → 0 ≤ limit →
      let d : Demand := ⟨model, prompt, limit, false⟩
      let outcome := generate ask s t directory d
      let looked := (lookup t cwd s.now limit (filePath directory model prompt)).2
      outcome.asked = some (query model prompt) ∧ outcome.result = asking ask d ∧
        ∀ c, ask (query model prompt) = .ok c → (keeping ask s looked directory d).1 = .ok () →
          Files.readText outcome.tree cwd (filePath directory model prompt) =
              .ok (entryOf s d c).text ∧
            ∀ later, (lookup outcome.tree cwd later 0 (filePath directory model prompt)).1 =
              some (kept c) := by
  have hfound : fileAt t cwd (filePath directory model prompt) = some f :=
    fileAt_of_file hloc hfile
  have hmiss : ∀ now limit, (lookup t cwd now limit (filePath directory model prompt)).1 = none :=
    fun now limit => lookup_damaged hfinite hdamaged hfound limit
  refine ⟨hmiss, fun ask s limit hcwd hlimit => ?_⟩
  subst hcwd
  have huses : usesCache ⟨model, prompt, limit, false⟩ = true := by
    simpa [usesCache] using hlimit
  simp only [generate_miss huses (hmiss s.now limit), true_and]
  intro c hask hkept
  simp only [keeping, hask] at hkept ⊢
  have hdirect := direct_of_store (lookup_keeps_place hloc hfile limit) (store_eq hkept)
  refine ⟨readText_of_store hdirect (store_eq hkept), fun later => ?_⟩
  exact lookup_of_store (finite_timestamp s.now) hdirect (store_eq hkept) (le_refl 0) (.inl rfl)

/-- A directory with the first twenty bytes of a document. -/
def halfWritten : Tree :=
  ⟨[(["cache"], .directory), (["p.m.dc52f28a8a.json", "cache"],
    .file ⟨(bytesOf (Entry.mk "m" "p" "x" (timestamp 0)).text).take 20, 0, false⟩)]⟩

/-- Twenty bytes are no answer, and the next one is kept in their place. -/
theorem half_a_document_is_replaced :
    (lookup halfWritten [] 0 0 (filePath "cache" "m" "p")).1 = none ∧
      (lookup (generate (fun _ => .ok ⟨" y\n", none⟩) ⟨[], 5, ["t"]⟩ halfWritten "cache"
        ⟨"m", "p", 0, false⟩).tree [] 9 0 (filePath "cache" "m" "p")).1 = some "y" := by
  have hfinite : Finite64 (timestamp 0) := finite_timestamp 0
  have hdamaged : Damaged ⟨"m", "p", "x", timestamp 0⟩
      ((bytesOf (Entry.mk "m" "p" "x" (timestamp 0)).text).take 20) :=
    .cut (List.take_prefix _ _) (by decide +kernel)
  have hloc : resolve halfWritten [] false (filePath "cache" "m" "p") =
      .ok ["p.m.dc52f28a8a.json", "cache"] := by decide +kernel
  obtain ⟨hmiss, hstep⟩ := damaged_document_is_replaced hfinite hdamaged hloc rfl
  obtain ⟨-, -, hkept⟩ :=
    hstep (fun _ => .ok ⟨" y\n", none⟩) ⟨[], 5, ["t"]⟩ 0 rfl (le_refl 0)
  refine ⟨hmiss 0 0, ?_⟩
  have hanswer : kept ⟨" y\n", none⟩ = "y" := by decide +kernel
  rw [(hkept ⟨" y\n", none⟩ rfl (by decide +kernel)).2 9, hanswer]

end PromptRunner.Cache
