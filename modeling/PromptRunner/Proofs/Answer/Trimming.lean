import PromptRunner.Proofs.Answer

/-!
# The program of a trimmed answer

An answer is trimmed before it is kept, and the program is looked for in what was kept. Blanks at
the two ends of a text come in two kinds. Some make lines of their own, which are no fence and look
like no code. The others stand at the outer end of the first or of the last line, where trimming
that line takes them away again. So the scan sees the same signs in the same order, with or without
the blanks, and what it captures differs at most by blanks at its two ends.
-/

namespace PromptRunner.Text

variable {a b s line : List Char} {rest : List (List Char)} {c : Char}

/-! ## Blanks and lines -/

theorem lines_feed (s : List Char) : lines ('\n' :: s) = [] :: lines s := rfl

theorem lines_cons (hc : c ≠ '\n') (h : lines s = line :: rest) :
    lines (c :: s) = (c :: line) :: rest := by
  unfold lines at h
  simp only [lines, cutAt, if_neg hc, h]

/-- Blanks before a text make blank lines and indent its first line. -/
theorem lines_append_left (h : isAllBlank a = true) (s : List Char) :
    ∃ blanks indent line rest, (∀ l ∈ blanks, isAllBlank l = true) ∧ isAllBlank indent = true ∧
      lines s = line :: rest ∧ lines (a ++ s) = blanks ++ (indent ++ line) :: rest := by
  induction a with
  | nil =>
    obtain ⟨line, rest, hs⟩ := List.exists_cons_of_ne_nil (cutAt_ne_nil '\n' s)
    exact ⟨[], [], line, rest, nofun, rfl, hs, hs⟩
  | cons c a ih =>
    rw [isAllBlank_cons, Bool.and_eq_true] at h
    obtain ⟨blanks, indent, line, rest, hblanks, hindent, hs, hlines⟩ := ih h.2
    rw [List.cons_append]
    by_cases hfeed : c = '\n'
    · subst hfeed
      refine ⟨[] :: blanks, indent, line, rest, List.forall_mem_cons.2 ⟨rfl, hblanks⟩, hindent, hs,
        ?_⟩
      rw [lines_feed, hlines, List.cons_append]
    · cases blanks with
      | nil =>
        refine ⟨[], c :: indent, line, rest, nofun, ?_, hs, lines_cons hfeed hlines⟩
        rw [isAllBlank_cons, h.1, hindent]
        rfl
      | cons first blanks =>
        obtain ⟨hfirst, hblanks⟩ := List.forall_mem_cons.1 hblanks
        refine ⟨(c :: first) :: blanks, indent, line, rest, List.forall_mem_cons.2 ⟨?_, hblanks⟩,
          hindent, hs, lines_cons hfeed hlines⟩
        rw [isAllBlank_cons, h.1, hfirst]
        rfl

/-- Blanks behind a text lengthen its last line and make blank lines. -/
theorem lines_append_right (h : isAllBlank b = true) (s : List Char) :
    ∃ before line tail blanks, (∀ l ∈ blanks, isAllBlank l = true) ∧ isAllBlank tail = true ∧
      lines s = before ++ [line] ∧ lines (s ++ b) = before ++ (line ++ tail) :: blanks := by
  induction s with
  | nil =>
    obtain ⟨tail, blanks, hb⟩ := List.exists_cons_of_ne_nil (cutAt_ne_nil '\n' b)
    have hink : (lines b).flatMap ink = [] := by
      rw [← ink_unlines, unlines_lines, ink_eq_nil_iff.2 h]
    have hblank : ∀ l ∈ lines b, isAllBlank l = true := fun l hl =>
      ink_eq_nil_iff.1 (List.flatMap_eq_nil_iff.1 hink l hl)
    rw [lines, hb] at hblank
    obtain ⟨htail, hblanks⟩ := List.forall_mem_cons.1 hblank
    exact ⟨[], [], tail, blanks, hblanks, htail, rfl, hb⟩
  | cons c s ih =>
    obtain ⟨before, line, tail, blanks, hblanks, htail, hs, hlines⟩ := ih
    rw [List.cons_append]
    by_cases hfeed : c = '\n'
    · subst hfeed
      refine ⟨[] :: before, line, tail, blanks, hblanks, htail, ?_, ?_⟩
      · rw [lines_feed, hs, List.cons_append]
      · rw [lines_feed, hlines, List.cons_append]
    · cases before with
      | nil =>
        exact ⟨[], c :: line, tail, blanks, hblanks, htail, lines_cons hfeed hs,
          lines_cons hfeed hlines⟩
      | cons first before =>
        exact ⟨(c :: first) :: before, line, tail, blanks, hblanks, htail, lines_cons hfeed hs,
          lines_cons hfeed hlines⟩

theorem isAllBlank_unlines {blanks : List (List Char)} (h : ∀ l ∈ blanks, isAllBlank l = true) :
    isAllBlank (unlines blanks) = true := by
  rw [← ink_eq_nil_iff, ink_unlines, List.flatMap_eq_nil_iff]
  exact fun l hl => ink_eq_nil_iff.2 (h l hl)

end PromptRunner.Text

namespace PromptRunner.Answer

open PromptRunner.Text

variable {a b line tail indent : List Char} {all all' blanks before rest : List (List Char)}

theorem isFence_congr {line line' : List Char} (h : trim line = trim line') :
    isFence line = isFence line' := by rw [isFence, isFence, h]

theorem isMarker_congr {line line' : List Char} (h : trim line = trim line') :
    isMarker line = isMarker line' := by rw [isMarker, isMarker, h]

/-- A blank line is no sign. -/
theorem no_sign_of_blank (h : isAllBlank line = true) :
    isFence line = false ∧ isMarker line = false := by
  have hnil : trim line = trim [] := trim_eq_nil_iff.2 h
  rw [isFence_congr hnil, isMarker_congr hnil]
  exact ⟨by decide, by decide⟩

theorem captured_blanks (h : ∀ l ∈ blanks, isAllBlank l = true) :
    captured all (blanks ++ rest) = captured all rest := by
  induction blanks with
  | nil => rfl
  | cons l blanks ih =>
    obtain ⟨hl, hblanks⟩ := List.forall_mem_cons.1 h
    obtain ⟨hfence, hmarker⟩ := no_sign_of_blank hl
    rw [List.cons_append, captured, hfence, hmarker, if_neg Bool.false_ne_true,
      if_neg Bool.false_ne_true, ih hblanks]

theorem block_blanks (h : ∀ l ∈ blanks, isAllBlank l = true) : block blanks = blanks := by
  rw [block, List.takeWhile_eq_self_iff]
  intro l hl
  rw [(no_sign_of_blank (h l hl)).1]
  rfl

/-- What is captured is all the lines, or does not depend on them. -/
theorem captured_cases (ls : List (List Char)) :
    (∀ all, captured all ls = all) ∨ ∀ all all', captured all ls = captured all' ls := by
  induction ls with
  | nil => exact .inr fun _ _ => rfl
  | cons line ls ih =>
    unfold captured
    by_cases hfence : isFence line = true
    · rw [hfence]
      exact .inr fun _ _ => rfl
    · by_cases hmarker : isMarker line = true
      · rw [Bool.not_eq_true] at hfence
        rw [hfence, hmarker]
        exact .inl fun _ => rfl
      · rw [Bool.not_eq_true] at hfence hmarker
        rw [hfence, hmarker]
        exact ih

/-! ## Blanks before an answer -/

theorem code_append_left (h : isAllBlank a = true) (s : List Char) : code (a ++ s) = code s := by
  obtain ⟨blanks, indent, line, rest, hblanks, hindent, hs, hlines⟩ := lines_append_left h s
  have hsame : trim (indent ++ line) = trim line := trim_append_left hindent line
  -- the indented line is the same sign as the line, so that the scan goes the same way
  have hcaptured : ∀ all, captured all (lines (a ++ s)) = captured all (lines s) := by
    intro all
    rw [hlines, captured_blanks hblanks, hs, captured, captured, isFence_congr hsame,
      isMarker_congr hsame]
  have htext : trim (unlines (captured (lines (a ++ s)) (lines (a ++ s)))) =
      trim (unlines (captured (lines s) (lines s))) := by
    rw [hcaptured]
    rcases captured_cases (lines s) with hall | hsame
    · rw [hall, hall, unlines_lines, unlines_lines, trim_append_left h]
    · rw [hsame _ (lines s)]
  simp only [code, htext, trim_append_left h]

/-! ## Blanks behind an answer -/

/-- Blanks behind the last line lengthen a text by blanks. -/
theorem unlines_append_right (before : List (List Char)) (line : List Char)
    (htail : isAllBlank tail = true) (hblanks : ∀ l ∈ blanks, isAllBlank l = true) :
    ∃ b, isAllBlank b = true ∧
      unlines (before ++ (line ++ tail) :: blanks) = unlines (before ++ [line]) ++ b := by
  have hlast : ∃ b, isAllBlank b = true ∧ unlines ((line ++ tail) :: blanks) = line ++ b := by
    cases blanks with
    | nil => exact ⟨tail, htail, rfl⟩
    | cons next blanks =>
      refine ⟨tail ++ '\n' :: unlines (next :: blanks), ?_, ?_⟩
      · rw [isAllBlank_append, isAllBlank_cons, htail, isAllBlank_unlines hblanks]
        rfl
      · rw [← List.append_assoc]
        rfl
  obtain ⟨b, hb, hlast⟩ := hlast
  refine ⟨b, hb, ?_⟩
  cases before with
  | nil => exact hlast
  | cons first before =>
    have hfirst : first :: before ≠ [] := List.cons_ne_nil _ _
    have hfeed : ∀ ls, ls ≠ [] → unlines (first :: before ++ ls) =
        unlines (first :: before) ++ '\n' :: unlines ls := fun ls => joinWith_append hfirst
    rw [hfeed _ (List.cons_ne_nil _ _), hfeed _ (List.cons_ne_nil _ _), hlast, List.append_assoc]
    rfl

theorem block_append_right (before : List (List Char)) (line : List Char)
    (htail : isAllBlank tail = true) (hblanks : ∀ l ∈ blanks, isAllBlank l = true) :
    ∃ b, isAllBlank b = true ∧ unlines (block (before ++ (line ++ tail) :: blanks)) =
      unlines (block (before ++ [line])) ++ b := by
  have hline : isFence (line ++ tail) = isFence line :=
    isFence_congr (trim_append_right htail line)
  have hrest : block blanks = blanks := block_blanks hblanks
  unfold block at hrest ⊢
  by_cases hopen : ∀ l ∈ before, (!isFence l) = true
  · rw [List.takeWhile_append_of_pos hopen, List.takeWhile_append_of_pos hopen,
      List.takeWhile_cons, List.takeWhile_cons, hline, hrest]
    cases isFence line with
    | true => exact ⟨[], rfl, (List.append_nil _).symm⟩
    | false => exact unlines_append_right before line htail hblanks
  · -- the block ends before the last line
    refine ⟨[], rfl, ?_⟩
    have hclosed : (before.takeWhile (!isFence ·)).length ≠ before.length := by
      intro hlength
      refine hopen fun l hl => ?_
      have hwhole := (List.takeWhile_prefix (!isFence ·)).eq_of_length hlength
      rw [← hwhole] at hl
      exact List.mem_takeWhile_imp (p := (!isFence ·)) hl
    rw [List.takeWhile_append, if_neg hclosed, List.takeWhile_append, if_neg hclosed,
      List.append_nil]

theorem captured_append_right (before : List (List Char)) (line : List Char)
    (htail : isAllBlank tail = true) (hblanks : ∀ l ∈ blanks, isAllBlank l = true)
    (hall : ∃ b, isAllBlank b = true ∧ unlines all' = unlines all ++ b) :
    ∃ b, isAllBlank b = true ∧
      unlines (captured all' (before ++ (line ++ tail) :: blanks)) =
        unlines (captured all (before ++ [line])) ++ b := by
  have hsame : trim (line ++ tail) = trim line := trim_append_right htail line
  induction before with
  | nil =>
    rw [List.nil_append, List.nil_append, captured, captured, isFence_congr hsame,
      isMarker_congr hsame]
    split
    · refine ⟨unlines blanks, isAllBlank_unlines hblanks, ?_⟩
      rw [block_blanks hblanks]
      rfl
    · split
      · exact hall
      · refine ⟨[], rfl, ?_⟩
        rw [← List.append_nil blanks, captured_blanks hblanks]
        rfl
  | cons first before ih =>
    rw [List.cons_append, List.cons_append, captured, captured]
    split
    · exact block_append_right before line htail hblanks
    · split
      · exact hall
      · exact ih

theorem code_append_right (h : isAllBlank b = true) (s : List Char) : code (s ++ b) = code s := by
  obtain ⟨before, line, tail, blanks, hblanks, htail, hs, hlines⟩ := lines_append_right h s
  have hall : unlines (lines (s ++ b)) = unlines (lines s) ++ b := by
    rw [unlines_lines, unlines_lines]
  obtain ⟨b', hb', hcaptured⟩ := captured_append_right before line htail hblanks ⟨b, h, hall⟩
  rw [← hs, ← hlines] at hcaptured
  simp only [code, hcaptured, trim_append_right hb', trim_append_right h]

/-- Trimming an answer leaves its program. -/
theorem code_trim (s : List Char) : code (trim s) = code s := by
  obtain ⟨a, b, hs, ha, hb⟩ := exists_trim s
  calc
    code (trim s) = code (a ++ trim s) := (code_append_left ha _).symm
    _ = code (a ++ trim s ++ b) := (code_append_right hb _).symm
    _ = code s := by rw [← hs]

theorem extractCode_trimmed (answer : String) :
    extractCode (trimmed answer) = extractCode answer := by
  rw [extractCode, extractCode, trimmed, String.toList_ofList, code_trim]

end PromptRunner.Answer
