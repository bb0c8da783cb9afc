import PromptRunner.Proofs.Text.Blank
import PromptRunner.Request

/-!
# A request from a file and the same request from the command line

A text holds a request: all of it, or what stands behind a first line that names an interpreter
(`Holds`). For a file the blanks at the ends are taken away first and the interpreter's line then,
for an argument it is the other way round. The two orders agree as long as the text does not begin
with a blank, which would hide the interpreter's line from one of them. What makes them agree is
that blanks behind a text change nothing but the blanks behind its request (`Holds.append`): they
lengthen what stands behind the first line, or the first line itself, and a line feed among them
ends a first line behind which there is nothing to be found.
-/

namespace PromptRunner.Request

open PromptRunner.Text PromptRunner.Files

/-- The request that a text holds: the text, or what is behind its first line if that names an
interpreter. -/
inductive Holds : List Char → List Char → Prop where
  | whole {s : List Char} (h : ¬ ['#', '!'] <+: s) : Holds s s
  | behind {line rest : List Char} (h : '\n' ∉ line) :
      Holds ('#' :: '!' :: (line ++ '\n' :: rest)) (trim rest)
  | nothing {line : List Char} (h : '\n' ∉ line) : Holds ('#' :: '!' :: line) []

/-- What comes of a text: its request, or a refusal if that is blank. -/
inductive Comes (content : List Char) (origin : Origin) : Except Failure Request → Prop where
  | refused {text : List Char} (h : Holds content text) (hblank : isAllBlank text = true) :
      Comes content origin (.error .emptyRequest)
  | taken {text : String} (h : Holds content text.toList) (hink : hasInk text = true) :
      Comes content origin (.ok ⟨text, origin⟩)

variable {t : Tree} {cwd : Location} {argument path c : String} {origin : Origin}
  {s b line text content : List Char} {r : Request}

/-! ## The interpreter's line -/

theorem withoutInterpreter_whole (h : ¬ ['#', '!'] <+: s) : withoutInterpreter s = s :=
  if_neg fun hstart => h (startsWith_iff.1 hstart)

theorem no_feed_before (h : '\n' ∉ line) : ∀ c ∈ '#' :: '!' :: line, decide (c ≠ '\n') = true := by
  refine List.forall_mem_cons.2 ⟨rfl, List.forall_mem_cons.2 ⟨rfl, fun c hc => ?_⟩⟩
  exact decide_eq_true fun heq => h (heq ▸ hc)

theorem withoutInterpreter_behind (h : '\n' ∉ line) (rest : List Char) :
    withoutInterpreter ('#' :: '!' :: (line ++ '\n' :: rest)) = trim rest := by
  have hdrop : ('#' :: '!' :: line ++ '\n' :: rest).dropWhile (· ≠ '\n') = '\n' :: rest := by
    rw [List.dropWhile_append_of_pos (no_feed_before h)]
    rfl
  have hstart : startsWith ('#' :: '!' :: (line ++ '\n' :: rest)) ['#', '!'] = true := rfl
  rw [withoutInterpreter, if_pos hstart]
  exact congrArg (fun s => trim (s.drop 1)) hdrop

theorem withoutInterpreter_nothing (h : '\n' ∉ line) :
    withoutInterpreter ('#' :: '!' :: line) = [] := by
  have hstart : startsWith ('#' :: '!' :: line) ['#', '!'] = true := rfl
  rw [withoutInterpreter, if_pos hstart, List.dropWhile_eq_nil_iff.2 (no_feed_before h)]
  rfl

theorem holds_iff : Holds s text ↔ text = withoutInterpreter s := by
  constructor
  · rintro (h | h | h)
    · exact (withoutInterpreter_whole h).symm
    · exact (withoutInterpreter_behind h _).symm
    · exact (withoutInterpreter_nothing h).symm
  · rintro rfl
    by_cases hstart : ['#', '!'] <+: s
    · obtain ⟨body, rfl⟩ := hstart
      by_cases hfeed : '\n' ∈ body
      · obtain ⟨line, rest, rfl, hline⟩ := List.eq_append_cons_of_mem hfeed
        rw [List.cons_append, List.cons_append, List.nil_append, withoutInterpreter_behind hline]
        exact .behind hline
      · rw [List.cons_append, List.cons_append, List.nil_append, withoutInterpreter_nothing hfeed]
        exact .nothing hfeed
    · rw [withoutInterpreter_whole hstart]
      exact .whole hstart

/-- What a text without blanks at its ends holds has none either. -/
theorem Holds.isTight (h : Holds s text) (hs : isTight s = true) : Text.isTight text = true := by
  cases h with
  | whole => exact hs
  | behind => exact isTight_trim _
  | nothing => rfl

theorem comes_ofContent (content : List Char) (origin : Origin) :
    Comes content origin (ofContent content origin) := by
  have hholds : Holds content (withoutInterpreter content) := holds_iff.2 rfl
  simp only [ofContent]
  split
  · next hblank => exact .refused hholds hblank
  · next hink =>
    refine .taken (by rwa [String.toList_ofList]) ?_
    rw [hasInk, String.toList_ofList, Bool.eq_false_iff.2 hink]
    rfl

/-! ## Blanks behind a text -/

/-- Blanks behind a text do not complete a beginning that has none. -/
theorem start_of_append {start : List Char} (hstart : ∀ c ∈ start, isBlank c = false)
    (hb : isAllBlank b = true) (h : start <+: s ++ b) : start <+: s := by
  rcases List.prefix_or_prefix_of_prefix h (List.prefix_append s b) with hs | ⟨more, rfl⟩
  · exact hs
  · have hmore : more <+: b := (List.prefix_append_right_inj s).1 h
    cases more with
    | nil => exact (List.append_nil s).symm ▸ List.prefix_refl s
    | cons c more =>
      have hblank := List.all_eq_true.1 hb c (hmore.subset List.mem_cons_self)
      rw [hstart c (by simp)] at hblank
      cases hblank

/-- Blanks behind a text are blanks behind its request, or no part of it. -/
theorem Holds.append (h : Holds s text) (hb : isAllBlank b = true) :
    ∃ text', Holds (s ++ b) text' ∧ trim text' = trim text := by
  cases h with
  | whole h =>
    have hstart : ∀ c ∈ ['#', '!'], isBlank c = false :=
      List.forall_mem_cons.2 ⟨by decide, List.forall_mem_singleton.2 (by decide)⟩
    exact ⟨_, .whole fun hmore => h (start_of_append hstart hb hmore), trim_append_right hb s⟩
  | @behind line rest h =>
    refine ⟨trim (rest ++ b), ?_, by rw [trim_append_right hb]⟩
    simpa using @Holds.behind line (rest ++ b) h
  | @nothing line h =>
    by_cases hfeed : '\n' ∈ b
    · -- the first line ends among the blanks, and only blanks stand behind it
      obtain ⟨more, back, rfl, hmore⟩ := List.eq_append_cons_of_mem hfeed
      rw [isAllBlank_append, isAllBlank_cons, Bool.and_eq_true, Bool.and_eq_true] at hb
      have hback : trim back = [] := trim_eq_nil_iff.2 hb.2.2
      have hline : '\n' ∉ line ++ more := by simp [h, hmore]
      refine ⟨trim back, ?_, by rw [hback]⟩
      simpa using @Holds.behind (line ++ more) back hline
    · have hline : '\n' ∉ line ++ b := by simp [h, hfeed]
      refine ⟨[], ?_, rfl⟩
      simpa using Holds.nothing hline

/-- A text that begins with no blank is what trimming leaves of it and blanks behind that. -/
theorem exists_behind_trim (h : ∀ a, s.head? = some a → isBlank a = false) :
    ∃ b, s = trim s ++ b ∧ isAllBlank b = true := by
  obtain ⟨a, b, hs, ha, hb⟩ := exists_trim s
  cases a with
  | nil => exact ⟨b, hs, hb⟩
  | cons c a =>
    have hc : isBlank c = true := List.all_eq_true.1 ha c List.mem_cons_self
    rw [h c (by rw [hs]; rfl)] at hc
    cases hc

/-- Trimming before the interpreter's line is taken off is trimming after it. -/
theorem withoutInterpreter_trim (h : ∀ a, s.head? = some a → isBlank a = false) :
    withoutInterpreter (trim s) = trim (withoutInterpreter s) := by
  obtain ⟨b, hs, hb⟩ := exists_behind_trim h
  have hholds : Holds (trim s) (withoutInterpreter (trim s)) := holds_iff.2 rfl
  obtain ⟨text', hholds', htext⟩ := hholds.append hb
  rw [← hs, holds_iff] at hholds'
  rw [← hholds', htext, trim_eq_self (hholds.isTight (isTight_trim s))]

/-! ## Files and arguments -/

theorem isFile_of_readText (h : readText t cwd path = .ok c) : isFile t cwd path = true := by
  unfold readText readBytes at h
  unfold isFile
  cases hstat : stat t cwd path with
  | error e =>
    rw [hstat] at h
    cases h
  | ok found =>
    obtain ⟨loc, node⟩ := found
    cases node with
    | file => rfl
    | directory | link =>
      rw [hstat] at h
      cases h

theorem resolve_file (h : readText t cwd path = .ok c) :
    resolve t cwd path = ofContent (trim c.toList) (.file path) := by
  simp only [resolve, isFile_of_readText h, h, if_true]

theorem resolve_inline (h : isFile t cwd argument = false) :
    resolve t cwd argument = ofContent argument.toList .inline := by
  simp only [resolve, h, Bool.false_eq_true, if_false]

theorem isAllBlank_trim (s : List Char) : isAllBlank (trim s) = isAllBlank s := by
  rw [Bool.eq_iff_iff, ← ink_eq_nil_iff, ink_trim, ink_eq_nil_iff]

/-- A text that begins with no blank and what trimming leaves of it are both refused, or hold the
same request but for the blanks at its ends. -/
theorem ofContent_trim (h : ∀ a, s.head? = some a → isBlank a = false) (origin origin' : Origin) :
    (ofContent s origin = .error .emptyRequest ∧
        ofContent (trim s) origin' = .error .emptyRequest) ∨
      ∃ text, ofContent s origin = .ok ⟨text, origin⟩ ∧
        ofContent (trim s) origin' = .ok ⟨trimmed text, origin'⟩ := by
  simp only [ofContent, withoutInterpreter_trim h, isAllBlank_trim]
  cases isAllBlank (withoutInterpreter s) with
  | true => exact .inl ⟨rfl, rfl⟩
  | false =>
    refine .inr ⟨_, rfl, ?_⟩
    rw [trimmed, String.toList_ofList]
    rfl

theorem Comes.holds (h : Comes content origin (.ok r)) :
    r.origin = origin ∧ Holds content r.text.toList ∧ hasInk r.text = true := by
  cases h with
  | taken hholds hink => exact ⟨rfl, hholds, hink⟩

/-- What a file says, trimmed, or else the argument itself is the text that a request is taken from,
and it is refused if and only if that request is blank. So the request is never blank, and that of a
file has no blanks at its ends. A text that begins with no blank makes one request, but for the
blanks at its ends, whether it is given as a file or as the argument. -/
theorem requests_agree (t : Tree) (cwd : Location) (argument : String) :
    (∀ content, readText t cwd argument = .ok content →
        Comes (trim content.toList) (.file argument) (resolve t cwd argument)) ∧
      (isFile t cwd argument = false →
        Comes argument.toList .inline (resolve t cwd argument)) ∧
      (∀ r, resolve t cwd argument = .ok r → hasInk r.text = true ∧
        ((isFile t cwd argument = false ∧ r.origin = .inline ∧
            Holds argument.toList r.text.toList) ∨
          ∃ content, readText t cwd argument = .ok content ∧ r.origin = .file argument ∧
            Holds (trim content.toList) r.text.toList ∧ isTight r.text.toList = true)) ∧
      ∀ (t' : Tree) (cwd' : Location) (path : String), isFile t cwd argument = false →
        readText t' cwd' path = .ok argument →
        (∀ a, argument.toList.head? = some a → isBlank a = false) →
        (resolve t cwd argument = .error .emptyRequest ∧
            resolve t' cwd' path = .error .emptyRequest) ∨
          ∃ text, resolve t cwd argument = .ok ⟨text, .inline⟩ ∧
            resolve t' cwd' path = .ok ⟨trimmed text, .file path⟩ := by
  have hfile : ∀ content, readText t cwd argument = .ok content →
      Comes (trim content.toList) (.file argument) (resolve t cwd argument) := by
    intro content hread
    rw [resolve_file hread]
    exact comes_ofContent _ _
  have hinline : isFile t cwd argument = false →
      Comes argument.toList .inline (resolve t cwd argument) := by
    intro hnone
    rw [resolve_inline hnone]
    exact comes_ofContent _ _
  refine ⟨hfile, hinline, fun r hr => ?_, fun t' cwd' path hnone hread hfirst => ?_⟩
  · cases hcheck : isFile t cwd argument with
    | false =>
      obtain ⟨horigin, hholds, hink⟩ := (hr ▸ hinline hcheck).holds
      exact ⟨hink, .inl ⟨rfl, horigin, hholds⟩⟩
    | true =>
      cases hread : readText t cwd argument with
      | error e =>
        rw [resolve, if_pos hcheck, hread] at hr
        cases hr
      | ok content =>
        obtain ⟨horigin, hholds, hink⟩ := (hr ▸ hfile content hread).holds
        exact ⟨hink, .inr ⟨content, rfl, horigin, hholds, hholds.isTight (isTight_trim _)⟩⟩
  · rw [resolve_inline hnone, resolve_file hread]
    exact ofContent_trim hfirst .inline (.file path)

/-- A script with an interpreter's line, blanks of several kinds and a second line of that sort. -/
def script : String := "#!/usr/bin/env llmexec\r\n\r\n#! count to ten\u00a0\r\n"

/-- A tree with the script in it. -/
def shelf : Tree := ⟨[(["ask"], .file ⟨bytesOf script, 0, true⟩)]⟩

theorem script_is_one_request :
    isFile shelf [] script = false ∧ readText shelf [] "ask" = .ok script ∧
      (∀ a, script.toList.head? = some a → isBlank a = false) ∧
      resolve shelf [] script = .ok ⟨"#! count to ten", .inline⟩ ∧
      resolve shelf [] "ask" = .ok ⟨"#! count to ten", .file "ask"⟩ := by
  have hnone : isFile shelf [] script = false := by decide +kernel
  have hread : readText shelf [] "ask" = .ok script := by decide +kernel
  have hfirst : ∀ a, script.toList.head? = some a → isBlank a = false := by
    have hmark : script.toList.head? = some '#' := rfl
    intro a ha
    rw [hmark] at ha
    cases ha
    decide
  have hinline : resolve shelf [] script = .ok ⟨"#! count to ten", .inline⟩ := by decide +kernel
  obtain ⟨-, -, -, hagree⟩ := requests_agree shelf [] script
  refine ⟨hnone, hread, hfirst, hinline, ?_⟩
  rcases hagree shelf [] "ask" hnone hread hfirst with ⟨hrefused, -⟩ | ⟨text, htaken, hfile⟩
  · rw [hinline] at hrefused
    cases hrefused
  · rw [hinline] at htaken
    obtain rfl : "#! count to ten" = text := by
      injection htaken with htaken
      injection htaken
    exact hfile

end PromptRunner.Request
