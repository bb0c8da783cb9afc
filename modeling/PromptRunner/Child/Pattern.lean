import PromptRunner.Text.Blank

/-!
# Patterns

Two kinds of pattern are matched. A name pattern has stars, question marks and sets, and is matched
against a whole text. A line pattern has sets, repetition, anchors and marked pieces, and is
searched for: the leftmost match counts, and each repetition takes as much as it can.
-/

namespace PromptRunner.Child

open PromptRunner.Text

/-- What one character is matched against. -/
inductive Atom where
  | any
  | char (c : Char)
  | set (negated : Bool) (ranges : List (Char × Char))
  deriving DecidableEq, Repr

def Atom.admits : Atom → Char → Bool
  | .any, _ => true
  | .char d, c => c = d
  | .set negated ranges, c => (ranges.any fun (a, b) => a ≤ c && c ≤ b) != negated

/-- The ranges of a set, and the text behind its closing bracket. -/
def setRanges : Nat → Bool → List (Char × Char) → List Char →
    Option (List (Char × Char) × List Char)
  | 0, _, _, _ => none
  | _, _, _, [] => none
  | fuel + 1, first, done, c :: rest =>
    if c = ']' && !first then some (done.reverse, rest)
    else
      match rest with
      | '-' :: d :: rest' =>
        if d = ']' then setRanges fuel false ((c, c) :: done) rest
        else setRanges fuel false ((c, d) :: done) rest'
      | _ => setRanges fuel false ((c, c) :: done) rest

def readSet (negations : List Char) (s : List Char) : Option (Atom × List Char) :=
  match s with
  | [] => none
  | c :: rest =>
    let negated := negations.contains c
    (setRanges (s.length + 1) true [] (if negated then rest else s)).map fun (ranges, rest) =>
      (.set negated ranges, rest)

/-- One part of a name pattern. -/
inductive NamePart where
  | star
  | atom (a : Atom)
  deriving DecidableEq, Repr

/-- A name pattern from its characters, each with whether it stands for itself. -/
def namePattern : Nat → List (Char × Bool) → List NamePart
  | 0, _ => []
  | _, [] => []
  | fuel + 1, (c, plain) :: rest =>
    if plain then .atom (.char c) :: namePattern fuel rest
    else if c = '*' then .star :: namePattern fuel rest
    else if c = '?' then .atom .any :: namePattern fuel rest
    else if c = '[' then
      match readSet ['!', '^'] (rest.map (·.1)) with
      | some (a, after) => .atom a :: namePattern fuel (rest.drop (rest.length - after.length))
      | none => .atom (.char c) :: namePattern fuel rest
    else .atom (.char c) :: namePattern fuel rest

/-- All ends of a text, the whole first. -/
def ends : List Char → List (List Char)
  | [] => [[]]
  | c :: rest => (c :: rest) :: ends rest

/-- Whether a name pattern matches a whole text. -/
def nameMatches : List NamePart → List Char → Bool
  | [], s => s.isEmpty
  | .star :: parts, s => (ends s).any (nameMatches parts ·)
  | .atom a :: parts, c :: s => a.admits c && nameMatches parts s
  | .atom _ :: _, [] => false

/-- One part of a line pattern. -/
inductive LinePart where
  | one (a : Atom)
  | repeated (a : Atom) (least : Nat)
  | optional (a : Atom)
  | lineStart
  | lineEnd
  | openMark
  | closeMark
  deriving DecidableEq, Repr

/-- A character before which a backslash gives a meaning; in the extended form it has the meaning
without one. -/
def isMeaning (extended escaped : Bool) : Bool := extended != escaped

def linePattern (extended : Bool) : Nat → List LinePart → List Char → List LinePart
  | 0, done, _ => done.reverse
  | _, done, [] => done.reverse
  | fuel + 1, done, c :: rest =>
    let next (part : LinePart) (rest : List Char) : List LinePart :=
      linePattern extended fuel (part :: done) rest
    let requantify (f : Atom → LinePart) (rest : List Char) (plain : Char) : List LinePart :=
      match done with
      | .one a :: done => linePattern extended fuel (f a :: done) rest
      | _ => next (.one (.char plain)) rest
    let meaning (c : Char) (escaped : Bool) (rest : List Char) : List LinePart :=
      if isMeaning extended escaped && c = '(' then next .openMark rest
      else if isMeaning extended escaped && c = ')' then next .closeMark rest
      else if isMeaning extended escaped && c = '+' then requantify (.repeated · 1) rest c
      else if isMeaning extended escaped && c = '?' then requantify .optional rest c
      else if escaped && c = 'n' then next (.one (.char '\n')) rest
      else if escaped && c = 't' then next (.one (.char '\t')) rest
      else next (.one (.char c)) rest
    if c = '\\' then
      match rest with
      | d :: rest => meaning d true rest
      | [] => next (.one (.char c)) []
    else if c = '.' then next (.one .any) rest
    else if c = '*' then requantify (.repeated · 0) rest c
    else if c = '^' && (done.isEmpty || done = [.openMark]) then next .lineStart rest
    else if c = '$' && (rest.isEmpty || extended && rest = [')']) then next .lineEnd rest
    else if c = '[' then
      match readSet ['^'] rest with
      | some (a, after) => next (.one a) after
      | none => next (.one (.char c)) rest
    else meaning c false rest

/-- A match: the text behind it, and the marked pieces in the order in which they were closed. -/
structure Found where
  rest : List Char
  pieces : List (List Char)

/-- Where a text may be cut so that the first part repeats an atom, the longest part first. -/
def repetitions (a : Atom) (least : Nat) (s : List Char) : List (List Char) :=
  let most := (s.takeWhile a.admits).length
  ((List.range (most + 1)).filter (least ≤ ·)).reverse.map (s.drop ·)

/-- A match of a line pattern at the start of a text; `before` says whether the line starts here,
`open_` holds where marked pieces began. -/
def lineMatch : List LinePart → Bool → List (List Char) → List (List Char) → List Char →
    Option Found
  | [], _, _, pieces, s => some ⟨s, pieces⟩
  | part :: parts, before, open_, pieces, s =>
    match part with
    | .one a =>
      match s with
      | c :: s => if a.admits c then lineMatch parts false open_ pieces s else none
      | [] => none
    | .repeated a least =>
      (repetitions a least s).findSome? fun r => lineMatch parts (before && r = s) open_ pieces r
    | .optional a =>
      ((repetitions a 0 s).filter fun r => s.length ≤ r.length + 1).findSome? fun r =>
        lineMatch parts (before && r = s) open_ pieces r
    | .lineStart => if before then lineMatch parts before open_ pieces s else none
    | .lineEnd => if s.isEmpty then lineMatch parts before open_ pieces s else none
    | .openMark => lineMatch parts before (s :: open_) pieces s
    | .closeMark =>
      match open_ with
      | start :: open_ =>
        lineMatch parts before open_ (pieces ++ [start.take (start.length - s.length)]) s
      | [] => none

/-- The leftmost match in a text: what stands before it, what it is, and the match. -/
def search (parts : List LinePart) (first : Bool) (s : List Char) :
    Option (List Char × List Char × Found) :=
  (ends s).findSome? fun r =>
    (lineMatch parts (first && r.length = s.length) [] [] r).map fun found =>
      (s.take (s.length - r.length), r.take (r.length - found.rest.length), found)

end PromptRunner.Child
