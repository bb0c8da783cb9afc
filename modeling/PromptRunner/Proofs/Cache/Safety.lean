import Mathlib.Data.List.DropRight
import PromptRunner.Proofs.Cache.Keys
import PromptRunner.Proofs.Cache.Names
import PromptRunner.Proofs.Files.Components

/-!
# The names of keys are safe

A model and a prompt are texts from outside, of any length and in any script. What a name shows of
them is said here in one pass over each text (`shown`): a separator as an underscore, a letter, a
digit, an underscore or a hyphen as it is, and of everything else nothing. From this it follows
that a name has its four parts whatever the texts are, that no cut goes through a character, and
that the path of a key leads nowhere but into its directory, past the temporary files that lie
there.
-/

namespace PromptRunner.Cache

open PromptRunner.Files PromptRunner.Text

variable {c : Char} {s separators : List Char} {model prompt : String}

/-- The letters from a to z in both cases, the ten digits, the underscore and the hyphen. -/
def isNameCharacter (c : Char) : Bool :=
  'A' ≤ c && c ≤ 'Z' || 'a' ≤ c && c ≤ 'z' || '0' ≤ c && c ≤ '9' || c = '_' || c = '-'

/-- The digits in base sixteen, with small letters. -/
def isSmallHexDigit (c : Char) : Bool := '0' ≤ c && c ≤ '9' || 'a' ≤ c && c ≤ 'f'

/-- What a name shows of a text. -/
def shown (separators s : List Char) : List Char :=
  s.filterMap fun c =>
    if c ∈ separators then some '_' else if isNameCharacter c then some c else none

/-- What stands behind the last slash of a text, which is all of it if it has none. -/
def behindLastSlash (s : List Char) : List Char := s.rtakeWhile (· ≠ '/')

example : shown [' ', '.'] "Rename *.jpg, Zoë!".toList = "Rename__jpg_Zo".toList := by
  decide +kernel

/-- What is promised of the name of a key and of its path in a directory. -/
structure SafeKey (directory model prompt : String) : Prop where
  parts : cutAt '.' (fileName model prompt).toList =
    [(shown [' ', '.'] prompt.toList).take 30, shown ['.'] (behindLastSlash model.toList),
      digestPiece model prompt, "json".toList]
  prompt_width : ((shown [' ', '.'] prompt.toList).take 30).length ≤ 30
  prompt_characters : ∀ c ∈ (shown [' ', '.'] prompt.toList).take 30, isNameCharacter c = true
  model_characters : ∀ c ∈ shown ['.'] (behindLastSlash model.toList), isNameCharacter c = true
  digest_width : (digestPiece model prompt).length = 10
  digest_characters : ∀ c ∈ digestPiece model prompt, isSmallHexDigit c = true
  /-- Thirty bytes of what is shown are thirty characters. -/
  no_character_split : (encode (shown [' ', '.'] prompt.toList)).take 30 =
    encode ((shown [' ', '.'] prompt.toList).take 30)
  no_slash : '/' ∉ (fileName model prompt).toList
  no_zero : '\x00' ∉ (fileName model prompt).toList
  one_component : Path.components (fileName model prompt) = [.name (fileName model prompt)]
  parent : ∃ parent, Path.parent? (filePath directory model prompt) = some parent ∧
    Path.components parent = Path.components directory
  not_temporary : ∀ middle : String,
    fileName model prompt ≠ temporaryName.start ++ middle ++ temporaryName.finish

/-! ## Characters -/

theorem isSafe_eq_isNameCharacter (c : Char) : isSafe c = isNameCharacter c := by
  have hsafe : isSafe c = (decide ('A' ≤ c ∧ c ≤ 'Z') || (decide ('a' ≤ c) && decide (c ≤ 'z')) ||
      (decide ('0' ≤ c) && decide (c ≤ '9')) || decide (c = '_') || decide (c = '-')) := rfl
  rw [hsafe, Bool.decide_and]
  rfl

theorem byteWidth_of_isNameCharacter (h : isNameCharacter c = true) : byteWidth c = 1 := by
  have hbound : c ≤ 'z' := by
    simp only [isNameCharacter, Bool.or_eq_true, Bool.and_eq_true, decide_eq_true_eq] at h
    rcases h with (((⟨-, h⟩ | ⟨-, h⟩) | ⟨-, h⟩) | rfl) | rfl
    · exact Char.le_trans h (by decide)
    · exact h
    · exact Char.le_trans h (by decide)
    · decide
    · decide
  have hascii : c.toNat < 0x80 := Nat.lt_of_le_of_lt (Char.le_def.1 hbound) (by decide)
  exact if_pos hascii

theorem isNameCharacter_of_mem_shown (h : c ∈ shown separators s) : isNameCharacter c = true := by
  obtain ⟨d, -, hd⟩ := List.mem_filterMap.1 h
  split at hd
  · cases hd
    decide
  · split at hd
    · next hname =>
      cases hd
      exact hname
    · cases hd

theorem isSmallHexDigit_of_mem_digestPiece (h : c ∈ digestPiece model prompt) :
    isSmallHexDigit c = true := by
  have hdigit : ∀ n, n < 16 → isSmallHexDigit (hexDigit n) = true := by decide
  obtain ⟨n, hn, rfl⟩ := hexDigit_of_mem_digestPiece h
  exact hdigit n hn

/-! ## One pass in place of two -/

/-- Separators are made underscores, which are safe, and then what is not safe is dropped. -/
theorem filter_map_eq_shown (separators s : List Char) :
    (s.map fun c => if c ∈ separators then '_' else c).filter isSafe = shown separators s := by
  induction s with
  | nil => rfl
  | cons c s ih =>
    rw [List.map_cons, List.filter_cons, ih, isSafe_eq_isNameCharacter]
    by_cases hsep : c ∈ separators
    · simp [shown, hsep, isNameCharacter]
    · by_cases hname : isNameCharacter c = true
      · simp [shown, hsep, hname]
      · simp [shown, hsep, hname]

theorem legible_eq_shown (s : List Char) : legible s = shown [' ', '.'] s := by
  rw [← filter_map_eq_shown]
  refine congrArg (List.filter isSafe) (List.map_congr_left fun c _ => ?_)
  simp [underscored, or_comm]

theorem modelName_eq (s : List Char) : modelName s = behindLastSlash s := by
  induction s using List.reverseRecOn with
  | nil => rfl
  | append_singleton s c ih =>
    rw [behindLastSlash, List.rtakeWhile_concat]
    split
    · next hc =>
      have hslash : '/' ∉ [c] := by
        rw [List.mem_singleton]
        exact fun heq => of_decide_eq_true hc heq.symm
      rw [modelName_append hslash, ih, behindLastSlash]
    · next hc =>
      obtain rfl : c = '/' := by simpa using hc
      exact modelName_slash s []

theorem promptPiece_eq_shown (s : List Char) : promptPiece s = (shown [' ', '.'] s).take 30 := by
  rw [← legible_eq_shown]
  rfl

theorem modelPiece_eq_shown (s : List Char) : modelPiece s = shown ['.'] (behindLastSlash s) := by
  rw [← filter_map_eq_shown, ← modelName_eq]
  simp only [List.mem_singleton]
  rfl

/-! ## The parts of a name -/

theorem length_digestPiece (model prompt : String) : (digestPiece model prompt).length = 10 := by
  rw [digestPiece, List.length_take, Digest.length_sha256Hex]
  rfl

/-- Where every character is one byte, so many bytes are so many characters. -/
theorem take_encode (h : ∀ c ∈ s, byteWidth c = 1) (n : Nat) :
    (encode s).take n = encode (s.take n) := by
  induction s generalizing n with
  | nil => simp [encode]
  | cons c s ih =>
    cases n with
    | zero => rfl
    | succ n =>
      obtain ⟨byte, hbyte⟩ : ∃ byte, encodeChar c = [byte] := by
        rw [← List.length_eq_one_iff, length_encodeChar, h c List.mem_cons_self]
      have ih := ih (fun c hc => h c (List.mem_cons_of_mem _ hc)) n
      rw [encode] at ih
      simp [encode, hbyte, ih]

theorem cutAt_fileName (model prompt : String) : cutAt '.' (fileName model prompt).toList =
    [promptPiece prompt.toList, modelPiece model.toList, digestPiece model prompt,
      "json".toList] := by
  have hperiod : isSafe '.' = false := by decide
  have hdigest : '.' ∉ digestPiece model prompt := fun h =>
    absurd (isSmallHexDigit_of_mem_digestPiece h) (by decide)
  have hending : ".json".toList = '.' :: "json".toList := rfl
  rw [toList_fileName, hending]
  simp only [List.append_assoc, List.cons_append, cutAt_append]
  rw [cutAt_of_notMem (notMem_promptPiece hperiod _), cutAt_of_notMem (notMem_modelPiece hperiod _),
    cutAt_of_notMem hdigest]
  rfl

/-- A character that stands in no part, and is no period, does not stand in the name. -/
theorem notMem_fileName (hsafe : isSafe c = false) (hdigit : isSmallHexDigit c = false)
    (hending : c ∉ ".json".toList) : c ∉ (fileName model prompt).toList := by
  have hdigest : c ∉ digestPiece model prompt := fun h =>
    absurd (isSmallHexDigit_of_mem_digestPiece h) (by simp [hdigit])
  have hperiod : c ≠ '.' := fun heq => hending (heq ▸ by decide)
  rw [toList_fileName]
  simp only [List.mem_append, List.mem_cons, not_or]
  exact ⟨⟨⟨notMem_promptPiece hsafe _, hperiod, notMem_modelPiece hsafe _⟩, hperiod, hdigest⟩,
    hending⟩

/-- Whatever the model and the prompt are, the name of their key is safe, and so is its path in
every directory. -/
theorem keys_are_safe (directory model prompt : String) : SafeKey directory model prompt where
  parts := by rw [cutAt_fileName, promptPiece_eq_shown, modelPiece_eq_shown]
  prompt_width := List.length_take_le ..
  prompt_characters := fun c h => isNameCharacter_of_mem_shown (List.mem_of_mem_take h)
  model_characters := fun c h => isNameCharacter_of_mem_shown h
  digest_width := length_digestPiece model prompt
  digest_characters := fun c h => isSmallHexDigit_of_mem_digestPiece h
  no_character_split :=
    take_encode (fun c h => byteWidth_of_isNameCharacter (isNameCharacter_of_mem_shown h)) 30
  no_slash := (plain_fileName model prompt).noSlash
  no_zero := notMem_fileName (by decide) (by decide) (by decide)
  one_component := (plain_fileName model prompt).components
  parent := components_of_parent_join directory (plain_fileName model prompt)
  not_temporary := fun middle => by
    have hname : temporaryName.start ++ middle ++ temporaryName.finish = String.ofList
        ((temporaryName.start ++ middle).toList ++ temporaryName.finish.toList) := by
      rw [← String.toList_append, String.ofList_toList]
    rw [hname]
    exact fileName_ne_of_ending _

end PromptRunner.Cache
