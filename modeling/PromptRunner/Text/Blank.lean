/-!
# White space, trimming and lines

A request, a reply and a setting are all read with the same notion of white space, the
`White_Space` property of the character tables. It is wider than the blanks of the core library
(no-break space, next line and the typographic spaces belong to it) and narrower than "invisible":
the zero-width space and the byte-order mark are text.

Everything here works on lists of characters, which is where the statements about it live:
trimming removes blanks at the two ends and nothing else, and cutting a text at its line feeds
loses nothing, since joining the lines again gives the text back.
-/

namespace PromptRunner.Text

def isBlank (c : Char) : Bool :=
  let n := c.toNat
  (9 ≤ n && n ≤ 13) || n == 0x20 || n == 0x85 || n == 0xA0 || n == 0x1680 ||
    (0x2000 ≤ n && n ≤ 0x200A) || n == 0x2028 || n == 0x2029 || n == 0x202F || n == 0x205F ||
    n == 0x3000

/-- The blanks of the core library are blanks here too. -/
theorem isBlank_of_isWhitespace {c : Char} (h : c.isWhitespace = true) : isBlank c = true := by
  simp only [Char.isWhitespace, Bool.or_eq_true, decide_eq_true_eq] at h
  rcases h with ((h | h) | h) | h <;> subst h <;> rfl

def trimStart (s : List Char) : List Char := s.dropWhile isBlank

def trimEnd (s : List Char) : List Char := (s.reverse.dropWhile isBlank).reverse

def trim (s : List Char) : List Char := trimEnd (trimStart s)

def isAllBlank (s : List Char) : Bool := s.all isBlank

/-- `trim` of a string. -/
def trimmed (s : String) : String := String.ofList (trim s.toList)

/-- Whether a string holds something other than blanks. -/
def hasInk (s : String) : Bool := !isAllBlank s.toList

/-- A text cut at every occurrence of a character, which belongs to no piece; there is always one
piece more than there are cuts. -/
def cutAt (sep : Char) : List Char → List (List Char)
  | [] => [[]]
  | c :: rest =>
    if c = sep then [] :: cutAt sep rest
    else
      match cutAt sep rest with
      | [] => [[c]]
      | piece :: pieces => (c :: piece) :: pieces

/-- Pieces put together again with a separator between them. -/
def joinWith (sep : Char) : List (List Char) → List Char
  | [] => []
  | [piece] => piece
  | piece :: next :: pieces => piece ++ sep :: joinWith sep (next :: pieces)

theorem cutAt_ne_nil (sep : Char) (s : List Char) : cutAt sep s ≠ [] := by
  cases s with
  | nil => simp [cutAt]
  | cons c rest =>
    simp only [cutAt]
    split
    · simp
    · split <;> simp

theorem cutAt_of_notMem {sep : Char} {s : List Char} (h : sep ∉ s) : cutAt sep s = [s] := by
  induction s with
  | nil => rfl
  | cons c s ih =>
    have hc : c ≠ sep := fun e => h (e ▸ List.mem_cons_self)
    rw [cutAt, if_neg hc, ih fun hs => h (List.mem_cons_of_mem c hs)]

/-- A separator cuts what is before it from what is behind it. -/
theorem cutAt_append (sep : Char) (a b : List Char) :
    cutAt sep (a ++ sep :: b) = cutAt sep a ++ cutAt sep b := by
  induction a with
  | nil => simp [cutAt]
  | cons c a ih =>
    rw [List.cons_append, cutAt, cutAt, ih]
    split
    · rfl
    · cases ha : cutAt sep a with
      | nil => exact absurd ha (cutAt_ne_nil sep a)
      | cons piece pieces => rfl

theorem joinWith_cutAt (sep : Char) (s : List Char) : joinWith sep (cutAt sep s) = s := by
  induction s with
  | nil => rfl
  | cons c rest ih =>
    simp only [cutAt]
    split
    · next h =>
      cases hc : cutAt sep rest with
      | nil => exact absurd hc (cutAt_ne_nil sep rest)
      | cons piece pieces => rw [hc] at ih; simp [joinWith, ih, h]
    · cases hc : cutAt sep rest with
      | nil => exact absurd hc (cutAt_ne_nil sep rest)
      | cons piece pieces =>
        rw [hc] at ih
        cases pieces <;> simp_all [joinWith]

theorem not_mem_of_mem_cutAt {sep : Char} {s piece : List Char} (h : piece ∈ cutAt sep s) :
    sep ∉ piece := by
  induction s generalizing piece with
  | nil => simp_all [cutAt]
  | cons c rest ih =>
    simp only [cutAt] at h
    split at h
    · rcases List.mem_cons.1 h with rfl | h
      · simp
      · exact ih h
    · next hc =>
      split at h
      · rw [List.mem_singleton.1 h, List.mem_singleton]
        exact fun e => hc e.symm
      · next first pieces heq =>
        rcases List.mem_cons.1 h with rfl | h
        · have := ih (heq ▸ List.mem_cons_self)
          simp only [List.mem_cons, not_or]
          exact ⟨fun e => hc e.symm, this⟩
        · exact ih (heq ▸ List.mem_cons_of_mem _ h)

def lines (s : List Char) : List (List Char) := cutAt '\n' s

def unlines (ls : List (List Char)) : List Char := joinWith '\n' ls

theorem unlines_lines (s : List Char) : unlines (lines s) = s := joinWith_cutAt '\n' s

def startsWith (s start : List Char) : Bool := start.isPrefixOf s

/-- What follows a given beginning, if the text has it. -/
def afterStart? (start : List Char) (s : List Char) : Option (List Char) :=
  if start.isPrefixOf s then some (s.drop start.length) else none

end PromptRunner.Text
