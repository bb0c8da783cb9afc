import PromptRunner.Proofs.Answer.Trimming

/-!
# The program of a program, and line feeds after carriage returns

Two things may be done to an answer that its program must not depend on.

The program may be looked for a second time, in what was found the first time. What was found is
either the whole answer but for blanks, and then trimming is all that happened to it, or some lines
without a fence among them, and then nothing opens a block and the whole of them stands.

A server may end its lines with a carriage return and a line feed. The carriage return is a blank at
the end of every line but the last, so every line stays the sign that it was. The last line is the
only exception, and it is none if a carriage return is put behind the whole answer as well, which
is one more blank there. With that the lines of the one answer are, one by one, the lines of the
other, and so are the lines that are captured.
-/

namespace PromptRunner.Answer

open PromptRunner.Text

variable {ls : List (List Char)} {line s : List Char}

/-! ## Looking again -/

/-- What is captured is all the lines or a block. -/
theorem captured_whole_or_block (all ls : List (List Char)) :
    captured all ls = all ∨ ∃ rest, rest <:+ ls ∧ captured all ls = block rest := by
  induction ls with
  | nil => exact .inr ⟨[], List.nil_suffix, rfl⟩
  | cons line ls ih =>
    rw [captured]
    split
    · exact .inr ⟨ls, List.suffix_cons line ls, rfl⟩
    · split
      · exact .inl rfl
      · rcases ih with hall | ⟨rest, hrest, hblock⟩
        · exact .inl hall
        · exact .inr ⟨rest, hrest.trans (List.suffix_cons line ls), hblock⟩

/-- Where no line is a fence there is no block. -/
theorem captured_of_no_fence (all : List (List Char)) (h : ∀ line ∈ ls, isFence line = false) :
    captured all ls = all ∨ captured all ls = [] := by
  induction ls with
  | nil => exact .inr rfl
  | cons line ls ih =>
    obtain ⟨hline, hls⟩ := List.forall_mem_cons.1 h
    rw [captured, hline, if_neg Bool.false_ne_true]
    split
    · exact .inl rfl
    · exact ih hls

/-- A text without a fence is its own program. -/
theorem code_of_no_fence (h : ∀ line ∈ lines s, isFence line = false) : code s = trim s := by
  rw [code]
  split
  · rfl
  · next hfound =>
    rcases captured_of_no_fence (lines s) h with hall | hnone
    · rw [hall, unlines_lines]
    · rw [hnone] at hfound
      exact absurd rfl hfound

/-- The program is the whole answer, or lines of it among which there is no fence. -/
theorem code_cases (s : List Char) :
    code s = trim s ∨
      ∃ ls, ls ≠ [] ∧ (∀ line ∈ ls, line ∈ lines s ∧ isFence line = false) ∧
        code s = trim (unlines ls) := by
  rw [code]
  split
  · exact .inl rfl
  · next hfound =>
    rcases captured_whole_or_block (lines s) (lines s) with hall | ⟨rest, hrest, hblock⟩
    · rw [hall, unlines_lines]
      exact .inl rfl
    · rw [hblock] at hfound ⊢
      refine .inr ⟨block rest, ?_, ?_, rfl⟩
      · intro hnil
        rw [hnil] at hfound
        exact hfound rfl
      · intro line hline
        have hmem : line ∈ rest := (List.takeWhile_prefix _).subset hline
        refine ⟨hrest.subset hmem, ?_⟩
        simpa using List.mem_takeWhile_imp hline

theorem code_code (s : List Char) : code (code s) = code s := by
  rcases code_cases s with hwhole | ⟨ls, hne, hls, hcode⟩
  · calc
      code (code s) = code (trim s) := by rw [hwhole]
      _ = code s := code_trim s
  · have hlines : lines (unlines ls) = ls :=
      cutAt_joinWith hne fun line hline => not_mem_of_mem_cutAt (hls line hline).1
    have hfence : ∀ line ∈ lines (unlines ls), isFence line = false := by
      intro line hline
      rw [hlines] at hline
      exact (hls line hline).2
    calc
      code (code s) = code (trim (unlines ls)) := by rw [hcode]
      _ = code (unlines ls) := code_trim _
      _ = trim (unlines ls) := code_of_no_fence hfence
      _ = code s := hcode.symm

/-- Whatever was found, to look for the program in it finds it again. -/
theorem extractCode_extractCode (answer : String) :
    extractCode (extractCode answer) = extractCode answer := by
  have hcode : (extractCode answer).toList = code answer.toList := String.toList_ofList
  rw [extractCode, hcode, code_code, ← extractCode]

/-! ## Carriage returns -/

/-- A text with a carriage return before every line feed. -/
def withReturns (s : List Char) : List Char :=
  s.flatMap fun c => if c = '\n' then ['\r', '\n'] else [c]

/-- A string with a carriage return before every line feed. -/
def crlf (s : String) : String := String.ofList (withReturns s.toList)

/-- A line with a carriage return at its end. -/
def ended (line : List Char) : List Char := line ++ ['\r']

theorem withReturns_append (a b : List Char) :
    withReturns (a ++ b) = withReturns a ++ withReturns b := List.flatMap_append

theorem withReturns_feed (s : List Char) :
    withReturns ('\n' :: s) = '\r' :: '\n' :: withReturns s := rfl

theorem withReturns_cons {c : Char} (hc : c ≠ '\n') (s : List Char) :
    withReturns (c :: s) = c :: withReturns s := by
  rw [withReturns, List.flatMap_cons, if_neg hc]
  rfl

theorem withReturns_eq_nil_iff : withReturns s = [] ↔ s = [] := by
  cases s with
  | nil => simp [withReturns]
  | cons c s =>
    by_cases hc : c = '\n'
    · subst hc
      simp [withReturns_feed]
    · simp [withReturns_cons hc]

theorem withReturns_of_no_feed (h : '\n' ∉ line) : withReturns line = line := by
  induction line with
  | nil => rfl
  | cons c line ih =>
    have hc : c ≠ '\n' := fun heq => h (heq ▸ List.mem_cons_self)
    have hline : '\n' ∉ line := fun hmem => h (List.mem_cons_of_mem c hmem)
    rw [withReturns_cons hc, ih hline]

/-! ### Blanks -/

theorem isAllBlank_withReturns (s : List Char) : isAllBlank (withReturns s) = isAllBlank s := by
  induction s with
  | nil => rfl
  | cons c s ih =>
    by_cases hc : c = '\n'
    · subst hc
      rw [withReturns_feed, isAllBlank_cons, isAllBlank_cons, isAllBlank_cons, ih]
      rfl
    · rw [withReturns_cons hc, isAllBlank_cons, isAllBlank_cons, ih]

/-- A text without blanks at its ends has no line feed there that would get a carriage return. -/
theorem isTight_withReturns (h : isTight s = true) : isTight (withReturns s) = true := by
  have hink : ∀ c : Char, (!isBlank c) = true → c ≠ '\n' := by
    rintro c hc rfl
    exact absurd hc (by decide)
  rw [isTight, Bool.and_eq_true] at h ⊢
  obtain ⟨hfirst, hlast⟩ := h
  constructor
  · cases s with
    | nil => rfl
    | cons c s =>
      rw [withReturns_cons (hink c hfirst)]
      exact hfirst
  · rcases List.eq_nil_or_concat s with rfl | ⟨front, c, rfl⟩
    · rfl
    · rw [List.concat_eq_append, List.getLast?_concat] at hlast
      rw [List.concat_eq_append, withReturns_append, withReturns_cons (hink c hlast)]
      show (withReturns front ++ [c]).getLast?.all _ = true
      rw [List.getLast?_concat]
      exact hlast

theorem trim_withReturns (s : List Char) : trim (withReturns s) = withReturns (trim s) := by
  obtain ⟨a, b, hs, ha, hb⟩ := exists_trim s
  rw [← isAllBlank_withReturns] at ha hb
  calc
    trim (withReturns s) = trim (withReturns (a ++ trim s ++ b)) := by rw [← hs]
    _ = trim (withReturns a ++ withReturns (trim s) ++ withReturns b) := by
      rw [withReturns_append, withReturns_append]
    _ = trim (withReturns (trim s)) := by rw [trim_append_right hb, trim_append_left ha]
    _ = withReturns (trim s) := trim_eq_self (isTight_withReturns (isTight_trim s))

/-! ### Lines -/

/-- Ended lines make the text with carriage returns, and one more behind it. -/
theorem unlines_map_ended (hne : ls ≠ []) (h : ∀ line ∈ ls, '\n' ∉ line) :
    unlines (ls.map ended) = withReturns (unlines ls) ++ ['\r'] := by
  induction ls with
  | nil => exact absurd rfl hne
  | cons line ls ih =>
    obtain ⟨hline, hls⟩ := List.forall_mem_cons.1 h
    cases ls with
    | nil =>
      show ended line = withReturns line ++ ['\r']
      rw [withReturns_of_no_feed hline]
      rfl
    | cons next ls =>
      have hrest := ih (List.cons_ne_nil next ls) hls
      show ended line ++ '\n' :: unlines ((next :: ls).map ended) =
        withReturns (line ++ '\n' :: unlines (next :: ls)) ++ ['\r']
      rw [hrest, withReturns_append, withReturns_feed, withReturns_of_no_feed hline, ended]
      simp only [List.append_assoc, List.cons_append, List.nil_append]

theorem lines_withReturns (s : List Char) :
    lines (withReturns s ++ ['\r']) = (lines s).map ended := by
  have hne : lines s ≠ [] := cutAt_ne_nil '\n' s
  have hno : ∀ line ∈ lines s, '\n' ∉ line := fun _ hline => not_mem_of_mem_cutAt hline
  have htext : unlines ((lines s).map ended) = withReturns s ++ ['\r'] := by
    rw [unlines_map_ended hne hno, unlines_lines]
  rw [← htext]
  refine cutAt_joinWith (mt List.map_eq_nil_iff.1 hne) ?_
  intro line hline
  obtain ⟨line, hmem, rfl⟩ := List.mem_map.1 hline
  intro hfeed
  rcases List.mem_append.1 hfeed with hfeed | hfeed
  · exact hno line hmem hfeed
  · exact absurd hfeed (by decide)

/-! ### The scan -/

theorem trim_ended (line : List Char) : trim (ended line) = trim line :=
  trim_append_right (by decide) line

theorem block_map_ended (ls : List (List Char)) : block (ls.map ended) = (block ls).map ended := by
  have hsame : (fun line => !isFence line) ∘ ended = fun line => !isFence line := by
    funext line
    rw [Function.comp_apply, isFence_congr (trim_ended line)]
  rw [block, List.takeWhile_map, hsame, block]

theorem captured_map_ended (all ls : List (List Char)) :
    captured (all.map ended) (ls.map ended) = (captured all ls).map ended := by
  induction ls with
  | nil => rfl
  | cons line ls ih =>
    rw [List.map_cons, captured, captured, isFence_congr (trim_ended line),
      isMarker_congr (trim_ended line), block_map_ended, ih]
    split
    · rfl
    · split <;> rfl

/-- What is captured has no line feeds, and with ended lines it says the same. -/
theorem trim_unlines_map_ended (h : ∀ line ∈ ls, '\n' ∉ line) :
    trim (unlines (ls.map ended)) = withReturns (trim (unlines ls)) := by
  by_cases hne : ls = []
  · rw [hne]
    rfl
  · rw [unlines_map_ended hne h, trim_append_right (by decide), trim_withReturns]

theorem code_withReturns (s : List Char) : code (withReturns s) = withReturns (code s) := by
  have hno : ∀ line ∈ captured (lines s) (lines s), '\n' ∉ line := by
    intro line hline
    exact not_mem_of_mem_cutAt ((captured_isInfix (List.suffix_refl _)).subset hline)
  have hfound : trim (unlines (captured (lines (withReturns s ++ ['\r']))
      (lines (withReturns s ++ ['\r'])))) =
        withReturns (trim (unlines (captured (lines s) (lines s)))) := by
    rw [lines_withReturns, captured_map_ended, trim_unlines_map_ended hno]
  have hblank : isAllBlank ['\r'] = true := by decide
  -- the carriage return behind it all makes the last line like the others
  rw [← code_append_right hblank, code, code, hfound, trim_append_right hblank, trim_withReturns]
  simp only [List.isEmpty_iff, withReturns_eq_nil_iff]
  split <;> rfl

/-- An answer with carriage returns has the program with carriage returns, between the lines and
not at its ends. -/
theorem extractCode_crlf (answer : String) :
    extractCode (crlf answer) = crlf (extractCode answer) ∧
      isTight (extractCode (crlf answer)).toList = true := by
  have hcode : ∀ a, (extractCode a).toList = code a.toList := fun a => String.toList_ofList
  refine ⟨?_, ?_⟩
  · rw [extractCode, crlf, String.toList_ofList, code_withReturns, crlf, hcode]
  · rw [hcode]
    exact isTight_code _

example : extractCode "Sure:\r\n```py\r\na\r\n\r\nb\r\n```\r\n" = "a\r\n\r\nb" := by decide +kernel

end PromptRunner.Answer
