import Mathlib.Data.List.TakeWhile
import PromptRunner.Text.Blank

/-!
# What trimming and cutting into lines keep

Blanks are what trimming may lose. The ink of a text, all of it that is no blank, is therefore what
it keeps: a trimmed text is a piece of the text with the same ink, and what was cut off at either
end is blank. Line feeds are blanks too, so lines put together have the ink of the lines, and some
of the lines of a text in a row make a piece of it.
-/

namespace PromptRunner.Text

/-- What of a text is no blank. -/
def ink (s : List Char) : List Char := s.filter (!isBlank ·)

/-- Whether a text has no blank at either end. -/
def isTight (s : List Char) : Bool :=
  s.head?.all (!isBlank ·) && s.getLast?.all (!isBlank ·)

theorem startsWith_iff {s start : List Char} : startsWith s start = true ↔ start <+: s :=
  List.isPrefixOf_iff_prefix

/-! ## Ink -/

theorem ink_append (a b : List Char) : ink (a ++ b) = ink a ++ ink b := List.filter_append ..

theorem ink_eq_nil_iff {s : List Char} : ink s = [] ↔ isAllBlank s = true := by
  simp [ink, isAllBlank, List.filter_eq_nil_iff]

/-! ## Trimming -/

/-- A text is what trimming leaves of it between blanks. -/
theorem exists_trim (s : List Char) :
    ∃ a b, s = a ++ trim s ++ b ∧ isAllBlank a = true ∧ isAllBlank b = true := by
  refine ⟨s.takeWhile isBlank, ((trimStart s).reverse.takeWhile isBlank).reverse, ?_,
    List.all_takeWhile, by simp [isAllBlank]⟩
  have hend : trim s ++ ((trimStart s).reverse.takeWhile isBlank).reverse = trimStart s := by
    rw [trim, trimEnd, ← List.reverse_append, List.takeWhile_append_dropWhile,
      List.reverse_reverse]
  rw [List.append_assoc, hend, trimStart, List.takeWhile_append_dropWhile]

theorem trim_isInfix (s : List Char) : trim s <:+: s := by
  obtain ⟨a, b, h, -, -⟩ := exists_trim s
  exact ⟨a, b, h.symm⟩

theorem ink_trim (s : List Char) : ink (trim s) = ink s := by
  obtain ⟨a, b, h, ha, hb⟩ := exists_trim s
  have hs : ink s = ink a ++ ink (trim s) ++ ink b := by rw [← ink_append, ← ink_append, ← h]
  rw [hs, ink_eq_nil_iff.2 ha, ink_eq_nil_iff.2 hb, List.nil_append, List.append_nil]

theorem trim_eq_nil_iff {s : List Char} : trim s = [] ↔ isAllBlank s = true := by
  constructor
  · intro h
    rw [← ink_eq_nil_iff, ← ink_trim, h]
    rfl
  · intro h
    have hstart : trimStart s = [] := List.dropWhile_eq_nil_iff.2 (List.all_eq_true.1 h)
    rw [trim, hstart]
    rfl

theorem isTight_trim (s : List Char) : isTight (trim s) = true := by
  have hhead : ∀ t : List Char, (t.dropWhile isBlank).head?.all (!isBlank ·) = true := by
    intro t
    have h := List.head?_dropWhile_not isBlank t
    cases hd : (t.dropWhile isBlank).head? <;> simp_all
  have hlast : (trim s).getLast?.all (!isBlank ·) = true := by
    rw [trim, trimEnd, List.getLast?_reverse]
    exact hhead _
  -- what is cut off at the end leaves the first character, if it leaves any
  have hfirst : (trim s).head?.all (!isBlank ·) = true := by
    have hprefix : trim s <+: trimStart s := by
      rw [trim, trimEnd, ← List.reverse_suffix, List.reverse_reverse]
      exact List.dropWhile_suffix _
    cases ht : trim s with
    | nil => rfl
    | cons c rest =>
      rw [ht] at hprefix
      obtain ⟨back, hback⟩ := hprefix
      have hs := hhead s
      rw [← trimStart, ← hback] at hs
      exact hs
  rw [isTight, hfirst, hlast]
  rfl

theorem trim_eq_self {s : List Char} (h : isTight s = true) : trim s = s := by
  have hkeep : ∀ t : List Char, t.head?.all (!isBlank ·) = true → t.dropWhile isBlank = t := by
    intro t ht
    cases t with
    | nil => rfl
    | cons c t => exact List.dropWhile_cons_of_neg (by simpa using ht)
  rw [isTight, Bool.and_eq_true] at h
  have hend : trimEnd s = s := by
    rw [trimEnd, hkeep s.reverse (by rw [List.head?_reverse]; exact h.2), List.reverse_reverse]
  rw [trim, trimStart, hkeep s h.1, hend]

/-! ## Blanks at the ends of a text -/

variable {a b s : List Char} {c : Char}

theorem isAllBlank_append : isAllBlank (a ++ b) = (isAllBlank a && isAllBlank b) :=
  List.all_append

theorem isAllBlank_cons : isAllBlank (c :: s) = (isBlank c && isAllBlank s) := List.all_cons

theorem trim_append_left (h : isAllBlank a = true) (s : List Char) : trim (a ++ s) = trim s := by
  have hstart : trimStart (a ++ s) = trimStart s :=
    List.dropWhile_append_of_pos (List.all_eq_true.1 h)
  rw [trim, hstart, ← trim]

theorem trimEnd_append (h : isAllBlank b = true) (s : List Char) :
    trimEnd (s ++ b) = trimEnd s := by
  have hreverse : ∀ c ∈ b.reverse, isBlank c = true := by
    intro c hc
    exact List.all_eq_true.1 h c (List.mem_reverse.1 hc)
  rw [trimEnd, List.reverse_append, List.dropWhile_append_of_pos hreverse, ← trimEnd]

theorem trim_append_right (h : isAllBlank b = true) (s : List Char) : trim (s ++ b) = trim s := by
  rw [trim, trim, trimStart, trimStart, List.dropWhile_append]
  split
  · next hempty =>
    -- all is blank, so that nothing is left on either side
    have hb : b.dropWhile isBlank = [] := List.dropWhile_eq_nil_iff.2 (List.all_eq_true.1 h)
    rw [hb, List.isEmpty_iff.1 hempty]
  · exact trimEnd_append h _

/-! ## Lines -/

theorem joinWith_append {sep : Char} {a b : List (List Char)} (ha : a ≠ []) (hb : b ≠ []) :
    joinWith sep (a ++ b) = joinWith sep a ++ sep :: joinWith sep b := by
  induction a with
  | nil => exact absurd rfl ha
  | cons piece a ih =>
    cases a with
    | nil =>
      cases b with
      | nil => exact absurd rfl hb
      | cons next b => rfl
    | cons next a =>
      have hrest := ih (List.cons_ne_nil next a)
      rw [List.cons_append] at hrest
      simp only [List.cons_append, joinWith, hrest, List.append_assoc]

/-- What is no separator is in one of the pieces. -/
theorem mem_cutAt {sep c : Char} {s : List Char} (hc : c ≠ sep) :
    c ∈ s ↔ ∃ piece ∈ cutAt sep s, c ∈ piece := by
  induction s with
  | nil => simp [cutAt]
  | cons d s ih =>
    rw [List.mem_cons, ih, cutAt]
    split
    · next hd => simp [hd, hc]
    · split
      · next hnil => exact absurd hnil (cutAt_ne_nil sep s)
      · next piece pieces hpieces =>
        simp [hpieces, or_assoc]

/-- Pieces without the separator are found again. -/
theorem cutAt_joinWith {sep : Char} {pieces : List (List Char)} (hne : pieces ≠ [])
    (h : ∀ piece ∈ pieces, sep ∉ piece) : cutAt sep (joinWith sep pieces) = pieces := by
  induction pieces with
  | nil => exact absurd rfl hne
  | cons piece pieces ih =>
    obtain ⟨hpiece, hpieces⟩ := List.forall_mem_cons.1 h
    cases pieces with
    | nil => exact cutAt_of_notMem hpiece
    | cons next pieces =>
      rw [joinWith, cutAt_append, cutAt_of_notMem hpiece, ih (List.cons_ne_nil _ _) hpieces,
        List.singleton_append]

/-- Lines in a row make a piece of the text that all the lines make. -/
theorem unlines_isInfix {part all : List (List Char)} (h : part <:+: all) :
    unlines part <:+: unlines all := by
  obtain ⟨before, after, rfl⟩ := h
  by_cases hnil : part = []
  · rw [hnil]
    exact List.nil_infix
  have hfront : unlines part <:+ unlines (before ++ part) := by
    by_cases hb : before = []
    · rw [hb]
      exact List.suffix_refl _
    · exact ⟨unlines before ++ ['\n'], by simp [unlines, joinWith_append hb hnil]⟩
  have hback : unlines (before ++ part) <+: unlines (before ++ part ++ after) := by
    by_cases ha : after = []
    · have hall : before ++ part = before ++ part ++ after := by rw [ha, List.append_nil]
      exact hall ▸ List.prefix_refl _
    · exact ⟨'\n' :: unlines after, (joinWith_append (by simp [hnil]) ha).symm⟩
  exact hfront.isInfix.trans hback.isInfix

theorem ink_unlines (ls : List (List Char)) : ink (unlines ls) = ls.flatMap ink := by
  induction ls with
  | nil => rfl
  | cons line ls ih =>
    cases ls with
    | nil => simp [unlines, joinWith]
    | cons next ls =>
      have hfeed : ink ('\n' :: unlines (next :: ls)) = ink (unlines (next :: ls)) :=
        List.filter_cons_of_neg (by decide)
      rw [unlines, joinWith, ink_append, ← unlines, hfeed, ih]
      rfl

end PromptRunner.Text
