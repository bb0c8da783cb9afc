import PromptRunner.Child.Pattern
import PromptRunner.Text.Utf8

/-!
# Streams of lines

Programs between two others read what the one wrote and write what the other reads. They work byte
by byte, each byte as one character, and line by line, where the last line may lack its line feed.
-/

namespace PromptRunner.Child

open PromptRunner.Text

def plain (bytes : Bytes) : List Char := bytes.map fun b => Char.ofNat b.toNat

def unplain (s : List Char) : Bytes := s.map fun c => UInt8.ofNat c.toNat

/-- An argument, each byte of it as one character. -/
def plainOf (s : String) : List Char := plain (bytesOf s)

/-- The lines of a stream without their line feeds; what a final line feed ends is the last. -/
def streamLines (s : List Char) : List (List Char) :=
  let pieces := lines s
  if pieces.getLast? = some [] then pieces.dropLast else pieces

def ofLines (ls : List (List Char)) : List Char := ls.flatMap (· ++ ['\n'])

/-- Lines with a line feed behind each; one behind the last only if the stream had it. -/
def ofLinesAs (stream : List Char) (ls : List (List Char)) : List Char :=
  let all := ofLines ls
  if stream.getLast? = some '\n' || stream.isEmpty then all else all.dropLast

/-- The characters that a set of the translating program stands for. -/
def translationSet : Nat → List Char → List Char
  | 0, _ => []
  | _, [] => []
  | fuel + 1, c :: rest =>
    let range (a b : Char) : List Char :=
      (List.range (b.toNat + 1 - a.toNat)).map fun i => Char.ofNat (a.toNat + i)
    let classes : List (List Char × List Char) :=
      [("[:upper:]".toList, range 'A' 'Z'), ("[:lower:]".toList, range 'a' 'z'),
        ("[:digit:]".toList, range '0' '9'), ("[:space:]".toList, "\t\n\x0b\x0c\r ".toList),
        ("[:alpha:]".toList, range 'A' 'Z' ++ range 'a' 'z'),
        ("[:alnum:]".toList, range '0' '9' ++ range 'A' 'Z' ++ range 'a' 'z')]
    match classes.find? fun (name, _) => startsWith (c :: rest) name with
    | some (name, members) => members ++ translationSet fuel ((c :: rest).drop name.length)
    | none =>
      let (c, rest) : Char × List Char :=
        match c, rest with
        | '\\', 'n' :: rest => ('\n', rest)
        | '\\', 't' :: rest => ('\t', rest)
        | '\\', 'r' :: rest => ('\r', rest)
        | '\\', d :: rest => (d, rest)
        | c, rest => (c, rest)
      match rest with
      | '-' :: d :: rest => range c d ++ translationSet fuel rest
      | rest => c :: translationSet fuel rest

def squeeze (set : List Char) : List Char → List Char
  | [] => []
  | c :: rest =>
    match squeeze set rest with
    | d :: rest => if c = d && set.contains c then d :: rest else c :: d :: rest
    | [] => [c]

/-- A character translated: the last of the second set stands in for what the set lacks. -/
def translated (source target : List Char) (c : Char) : Char :=
  match source.idxOf? c with
  | some i => (target[i]?).getD (target.getLast?.getD c)
  | none => c

def replacement (matched : List Char) (pieces : List (List Char)) : Nat → List Char → List Char
  | 0, _ => []
  | _, [] => []
  | fuel + 1, c :: rest =>
    if c = '&' then matched ++ replacement matched pieces fuel rest
    else if c = '\\' then
      match rest with
      | d :: rest =>
        if '1' ≤ d && d ≤ '9' then
          (pieces[d.toNat - 0x31]?).getD [] ++ replacement matched pieces fuel rest
        else (if d = 'n' then '\n' else d) :: replacement matched pieces fuel rest
      | [] => ['\\']
    else c :: replacement matched pieces fuel rest

/-- A line with its first match, or all matches, replaced; the answer says whether there was
one. -/
def substitute (parts : List LinePart) (new : List Char) (everywhere : Bool) :
    Nat → Bool → List Char → List Char × Bool
  | 0, _, s => (s, false)
  | fuel + 1, first, s =>
    match search parts first s with
    | none => (s, false)
    | some (before, matched, found) =>
      let text := replacement matched found.pieces (new.length + 1) new
      if !everywhere then (before ++ text ++ found.rest, true)
      else if matched.isEmpty then
        match found.rest with
        | [] => (before ++ text, true)
        | c :: rest =>
          (before ++ text ++ c :: (substitute parts new everywhere fuel false rest).1, true)
      else (before ++ text ++ (substitute parts new everywhere fuel false found.rest).1, true)

/-- Which lines an editing command is for. -/
inductive Selector where
  | all
  | line (n : Nat)
  | last
  | matching (parts : List LinePart)

/-- What an editing command does. -/
inductive Edit where
  | substitute (parts : List LinePart) (new : List Char) (everywhere printed : Bool)
  | print
  | delete
  | quit

/-- The text up to a mark that no backslash stands before, and the text behind it. -/
def upTo (mark : Char) : List Char → Option (List Char × List Char)
  | [] => none
  | '\\' :: c :: rest =>
    (upTo mark rest).map fun (a, b) => (if c = mark then c :: a else '\\' :: c :: a, b)
  | c :: rest =>
    if c = mark then some ([], rest) else (upTo mark rest).map fun (a, b) => (c :: a, b)

/-- One editing command, and the text behind it. -/
def readEdit (extended : Bool) (s : List Char) : Option ((Selector × Edit) × List Char) :=
  let s := s.dropWhile fun c => c = ' ' || c = ';' || c = '\n' || c = '\t'
  let pattern (source : List Char) : List LinePart :=
    linePattern extended (source.length + 1) [] source
  let selected : Option (Selector × List Char) :=
    match s with
    | '$' :: rest => some (.last, rest)
    | '/' :: rest => (upTo '/' rest).map fun (source, rest) => (.matching (pattern source), rest)
    | _ =>
      let digits := s.takeWhile Char.isDigit
      if digits.isEmpty then some (.all, s)
      else some (.line ((String.ofList digits).toNat?.getD 0), s.drop digits.length)
  match selected with
  | none => none
  | some (selector, rest) =>
    match rest with
    | 'p' :: rest => some ((selector, .print), rest)
    | 'd' :: rest => some ((selector, .delete), rest)
    | 'q' :: rest => some ((selector, .quit), rest)
    | 's' :: mark :: rest =>
      (upTo mark rest).bind fun (source, rest) =>
        (upTo mark rest).map fun (new, rest) =>
          let flags := rest.takeWhile fun c => c = 'g' || c = 'p' || c.isDigit
          ((selector, .substitute (pattern source) new (flags.contains 'g') (flags.contains 'p')),
            rest.drop flags.length)
    | _ => none

def readEdits (extended : Bool) : Nat → List Char → Option (List (Selector × Edit))
  | 0, _ => none
  | fuel + 1, s =>
    if s.all fun c => c = ' ' || c = ';' || c = '\n' || c = '\t' then some []
    else
      match readEdit extended s with
      | none => none
      | some (e, rest) => (readEdits extended fuel rest).map (e :: ·)

/-- What editing a line comes to: its lines, and whether the rest is still read. -/
def editLine (quiet : Bool) (number : Nat) (isLast : Bool) :
    List (Selector × Edit) → List (List Char) → List Char → List (List Char) × Bool
  | [], done, line => (done.reverse ++ (if quiet then [] else [line]), true)
  | (selector, edit) :: edits, done, line =>
    let applies : Bool :=
      match selector with
      | .all => true
      | .line n => n = number
      | .last => isLast
      | .matching parts => (search parts true line).isSome
    if !applies then editLine quiet number isLast edits done line
    else
      match edit with
      | .print => editLine quiet number isLast edits (line :: done) line
      | .delete => (done.reverse, true)
      | .quit => (done.reverse ++ (if quiet then [] else [line]), false)
      | .substitute parts new everywhere printed =>
        let (line, changed) := substitute parts new everywhere (line.length + 1) true line
        editLine quiet number isLast edits (if changed && printed then line :: done else done) line

/-- All lines edited, from a line number on. -/
def editLines (quiet : Bool) (edits : List (Selector × Edit)) :
    Nat → List (List Char) → List (List Char)
  | _, [] => []
  | number, line :: rest =>
    let (out, goOn) := editLine quiet number rest.isEmpty edits [] line
    out ++ if goOn then editLines quiet edits (number + 1) rest else []

end PromptRunner.Child
