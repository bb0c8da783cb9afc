import PromptRunner.Answer
import PromptRunner.Proofs.Text.Blank

/-!
# Which part of an answer is the program

`Answer.captured` looks at the lines one by one. What it finds can be said without a scan, by
places: the first line that is a fence or bare code decides, and if it is a fence, the lines up to
the next fence are the block (`program`). Whatever is found is a piece of the answer with no blanks
around it.

Because the first such line decides, prose that happens to begin a line with `import ` takes the
answer away from a block that follows. So the first block is the program exactly when no line before
it looks like code.
-/

namespace PromptRunner.Answer

open PromptRunner.Text

/-! ## By places -/

/-- The place of the first line that is a fence or bare code. -/
def firstSign? (ls : List (List Char)) : Option Nat :=
  ls.findIdx? fun line => isFence line || isMarker line

/-- The place of the next fence behind a line, or of the end if there is none. -/
def nextFence (ls : List (List Char)) (i : Nat) : Nat :=
  i + 1 + (ls.drop (i + 1)).findIdx isFence

/-- The lines strictly between two places. -/
def linesBetween (ls : List (List Char)) (i j : Nat) : List (List Char) := (ls.take j).drop (i + 1)

/-- The text of the block at the first sign, if that is a fence. -/
def blockText? (ls : List (List Char)) : Option (List Char) :=
  match firstSign? ls with
  | none => none
  | some i =>
    if ls[i]?.any isFence then some (unlines (linesBetween ls i (nextFence ls i))) else none

/-- The program in an answer: what the block at the first sign says, or else the whole answer. -/
def program (answer : List Char) : List Char :=
  match blockText? (lines answer) with
  | some text => if isAllBlank text then trim answer else trim text
  | none => trim answer

theorem linesBetween_cons (line : List Char) (ls : List (List Char)) (i j : Nat) :
    linesBetween (line :: ls) (i + 1) (j + 1) = linesBetween ls i j := rfl

theorem nextFence_cons (line : List Char) (ls : List (List Char)) (i : Nat) :
    nextFence (line :: ls) (i + 1) = nextFence ls i + 1 := by
  rw [nextFence, nextFence, List.drop_succ_cons]
  omega

/-- A block at the first line is what stands behind it up to a fence. -/
theorem linesBetween_zero (line : List Char) (ls : List (List Char)) :
    linesBetween (line :: ls) 0 (nextFence (line :: ls) 0) = block ls := by
  rw [linesBetween, nextFence, block, List.takeWhile_eq_take_findIdx_not]
  simp [Nat.add_comm]

/-- The scan finds the block at the first sign, or all the lines, or nothing. -/
theorem captured_eq (all ls : List (List Char)) :
    captured all ls =
      match firstSign? ls with
      | none => []
      | some i => if ls[i]?.any isFence then linesBetween ls i (nextFence ls i) else all := by
  induction ls with
  | nil => rfl
  | cons line ls ih =>
    rw [captured, firstSign?, List.findIdx?_cons, ← firstSign?]
    by_cases hfence : isFence line = true
    · simp [hfence, linesBetween_zero]
    · by_cases hmarker : isMarker line = true
      · simp [hfence, hmarker]
      · rw [if_neg hfence, if_neg hmarker, ih, if_neg (by simp [hfence, hmarker])]
        cases firstSign? ls with
        | none => rfl
        | some i =>
          simp only [Option.map_some, List.getElem?_cons_succ, nextFence_cons, linesBetween_cons]

theorem code_eq_program (answer : List Char) : code answer = program answer := by
  rw [code, program, blockText?, captured_eq]
  cases firstSign? (lines answer) with
  | none => rfl
  | some i =>
    by_cases hfence : (lines answer)[i]?.any isFence = true
    · simp only [if_pos hfence, List.isEmpty_iff, trim_eq_nil_iff]
    · simp only [if_neg hfence, unlines_lines, ite_self]

/-! ## A piece of the answer -/

/-- What is captured of some lines are lines in a row. -/
theorem captured_isInfix {all ls : List (List Char)} (h : ls <:+ all) :
    captured all ls <:+: all := by
  induction ls with
  | nil => exact List.nil_infix
  | cons line ls ih =>
    have hls : ls <:+ all := (List.suffix_cons line ls).trans h
    rw [captured]
    split
    · exact (List.takeWhile_prefix _).isInfix.trans hls.isInfix
    · split
      · exact List.infix_refl all
      · exact ih hls

theorem captured_text_isInfix (answer : List Char) :
    unlines (captured (lines answer) (lines answer)) <:+: answer := by
  have h := unlines_isInfix (captured_isInfix (List.suffix_refl (lines answer)))
  rwa [unlines_lines] at h

theorem code_isInfix (answer : List Char) : code answer <:+: answer := by
  rw [code]
  split
  · exact trim_isInfix answer
  · exact (trim_isInfix _).trans (captured_text_isInfix answer)

theorem isTight_code (answer : List Char) : isTight (code answer) = true := by
  rw [code]
  split <;> exact isTight_trim _

theorem code_eq_nil_iff {answer : List Char} : code answer = [] ↔ isAllBlank answer = true := by
  rw [code]
  split
  · exact trim_eq_nil_iff
  · next hfound =>
    rw [List.isEmpty_iff] at hfound
    refine iff_of_false hfound fun hblank => hfound (trim_eq_nil_iff.2 ?_)
    -- a piece of a blank answer is blank
    exact List.all_eq_true.2 fun c hc =>
      List.all_eq_true.1 hblank c ((captured_text_isInfix answer).subset hc)

/-- The program is what the definition by places says. It is a piece of the answer, has no blanks
around it, and is empty only if the answer is blank. -/
theorem extractCode_eq_program (answer : String) :
    (extractCode answer).toList = program answer.toList ∧
      (extractCode answer).toList <:+: answer.toList ∧
      isTight (extractCode answer).toList = true ∧
      (extractCode answer = "" ↔ isAllBlank answer.toList = true) := by
  have hcode : (extractCode answer).toList = code answer.toList := String.toList_ofList
  rw [← String.toList_eq_nil_iff, hcode]
  exact ⟨code_eq_program _, code_isInfix _, isTight_code _, code_eq_nil_iff⟩

/-- A block with no end behind a line that only mentions importing. -/
example : extractCode "An important note:\n ```py\n\nx = 1\n\t" = "x = 1" := by decide +kernel

/-! ## The first block -/

/-- An answer cut at its first fence: the lines before it, the fence, the lines of the block, and
what comes behind the block, which is nothing or starts with a fence. -/
structure FirstBlock (answer : String) (before : List (List Char)) (opening : List Char)
    (inside behind : List (List Char)) : Prop where
  lines_eq : lines answer.toList = before ++ opening :: (inside ++ behind)
  before_fence : before.any isFence = false
  opening_fence : isFence opening = true
  inside_fence : inside.any isFence = false
  behind_fence : behind.head?.all isFence = true

variable {answer : String} {before inside behind : List (List Char)} {opening : List Char}

theorem ink_ne_nil_of_isFence {line : List Char} (h : isFence line = true) : ink line ≠ [] := by
  intro hnil
  rw [isFence, trim_eq_nil_iff.2 (ink_eq_nil_iff.1 hnil)] at h
  exact absurd h (by decide)

theorem block_append (hinside : inside.any isFence = false)
    (hbehind : behind.head?.all isFence = true) : block (inside ++ behind) = inside := by
  have hall : ∀ line ∈ inside, (!isFence line) = true := by
    simpa using hinside
  rw [block, List.takeWhile_append_of_pos hall]
  cases behind with
  | nil => simp
  | cons line behind => simp_all

/-- Lines before the first fence hand the scan on, unless one of them looks like code. -/
theorem captured_append {all rest : List (List Char)} (hbefore : before.any isFence = false)
    (hopening : isFence opening = true) :
    captured all (before ++ opening :: rest) = if before.any isMarker then all else block rest := by
  induction before with
  | nil => simp [captured, hopening]
  | cons line before ih =>
    obtain ⟨hline, hbefore⟩ := Bool.or_eq_false_iff.1 hbefore
    rw [List.cons_append, captured, hline, if_neg Bool.false_ne_true, List.any_cons]
    by_cases hmarker : isMarker line = true
    · rw [hmarker, if_pos rfl, Bool.true_or, if_pos rfl]
    · rw [if_neg hmarker, Bool.of_not_eq_true hmarker, Bool.false_or, ih hbefore]

/-- The ink of a fence is no part of its block. -/
theorem FirstBlock.ink_lt (h : FirstBlock answer before opening inside behind) :
    (ink (unlines inside)).length < (ink answer.toList).length := by
  have hopening := List.length_pos_iff.2 (ink_ne_nil_of_isFence h.opening_fence)
  rw [← unlines_lines answer.toList, h.lines_eq, ink_unlines, ink_unlines]
  simp only [List.flatMap_append, List.flatMap_cons, List.length_append]
  omega

/-- The first block of an answer, if it holds anything, is the program exactly when no line before
it looks like code; it then does not matter what stands around the block. -/
theorem first_block_is_program_iff (h : FirstBlock answer before opening inside behind)
    (hink : isAllBlank (unlines inside) = false) :
    (extractCode answer).toList = trim (unlines inside) ↔ before.any isMarker = false := by
  have hcode : (extractCode answer).toList = code answer.toList := String.toList_ofList
  have hfilled : (trim (unlines inside)).isEmpty = false := by
    rw [← Bool.not_eq_true, List.isEmpty_iff, trim_eq_nil_iff, hink]
    exact Bool.false_ne_true
  rw [hcode, code, h.lines_eq, captured_append h.before_fence h.opening_fence,
    block_append h.inside_fence h.behind_fence]
  by_cases hmarker : before.any isMarker = true
  · -- then the whole answer is the program, and the fence has ink that the block has not
    refine iff_of_false ?_ (by simp [hmarker])
    rw [if_pos hmarker, ← h.lines_eq, unlines_lines, ite_self]
    intro hsame
    have hlt := h.ink_lt
    rw [← ink_trim, ← hsame, ink_trim] at hlt
    exact Nat.lt_irrefl _ hlt
  · rw [if_neg hmarker, hfilled]
    simp [hmarker]

/-- Prose before a block and code behind it do not matter. -/
theorem block_between_prose_and_code :
    FirstBlock "One line:\n```py\nprint(1)\n ```\nimport os" ["One line:".toList] "```py".toList
        ["print(1)".toList] [" ```".toList, "import os".toList] ∧
      isAllBlank (unlines ["print(1)".toList]) = false ∧
      extractCode "One line:\n```py\nprint(1)\n ```\nimport os" = "print(1)" := by
  have h : FirstBlock "One line:\n```py\nprint(1)\n ```\nimport os" ["One line:".toList]
      "```py".toList ["print(1)".toList] [" ```".toList, "import os".toList] :=
    ⟨by decide +kernel, by decide +kernel, by decide +kernel, by decide +kernel, by decide +kernel⟩
  have hink : isAllBlank (unlines ["print(1)".toList]) = false := by decide +kernel
  refine ⟨h, hink, String.toList_injective ?_⟩
  rw [(first_block_is_program_iff h hink).2 (by decide +kernel)]
  decide +kernel

/-- Prose that begins like an import takes the answer away from its first block. -/
theorem prose_before_a_block_is_taken :
    FirstBlock "import os is all it needs:\n```py\nprint(1)\n```"
        ["import os is all it needs:".toList] "```py".toList ["print(1)".toList]
        ["```".toList] ∧
      isAllBlank (unlines ["print(1)".toList]) = false ∧
      extractCode "import os is all it needs:\n```py\nprint(1)\n```" =
        "import os is all it needs:\n```py\nprint(1)\n```" ∧
      "import os is all it needs:\n```py\nprint(1)\n```".toList ≠
        trim (unlines ["print(1)".toList]) := by
  refine ⟨⟨?_, ?_, ?_, ?_, ?_⟩, ?_, ?_, ?_⟩ <;> decide +kernel

end PromptRunner.Answer
