import PromptRunner.Text.Blank

/-!
# Words and signs of a script

A script is read as words and signs. A word is made of parts: characters that stand for themselves,
and values that are put in when the word is used; of each part it is kept whether it stood in
quotes. Commands and sums inside a word are kept as text, and are read when they are wanted.

Text that ends inside quotes or brackets yields one last sign that says so, behind everything that
could be read before it, because what stands in front is run all the same.
-/

namespace PromptRunner.Child.Script

open PromptRunner.Text

/-- A part of a word, with whether it stood in quotes. -/
inductive Part where
  | literal (text : List Char) (quoted : Bool)
  | parameter (name change : List Char) (quoted : Bool)
  | output (source : List Char) (quoted : Bool)
  | sum (source : List Char) (quoted : Bool)
  deriving DecidableEq, Repr

abbrev Word := List Part

/-- A word or sign. -/
inductive Sign where
  | word (parts : Word)
  | mark (text : String)
  | descriptor (n : Nat)
  | here (body : Word)
  | broken (complaint : String)
  deriving DecidableEq, Repr

/-- A word or sign with the line it stands on. -/
structure Placed where
  sign : Sign
  line : Nat
  deriving DecidableEq, Repr

def isNameChar (c : Char) : Bool := c.isAlphanum || c = '_'

/-- The text up to the bracket that closes one opened before it, and the text behind that; brackets
inside quotes do not count. -/
def enclosed (opening closing : Char) : Nat → Option Char → List Char →
    Option (List Char × List Char)
  | _, _, [] => none
  | depth, quote, '\\' :: d :: rest =>
    if quote = some '\'' then
      (enclosed opening closing depth (if d = '\'' then none else quote) rest).map fun (a, b) =>
        ('\\' :: d :: a, b)
    else (enclosed opening closing depth quote rest).map fun (a, b) => ('\\' :: d :: a, b)
  | depth, some q, c :: rest =>
    (enclosed opening closing depth (if c = q then none else some q) rest).map fun (a, b) =>
      (c :: a, b)
  | depth, none, c :: rest =>
    let go (depth : Nat) (quote : Option Char) : Option (List Char × List Char) :=
      (enclosed opening closing depth quote rest).map fun (a, b) => (c :: a, b)
    if c = closing then
      match depth with
      | 0 => some ([], rest)
      | depth + 1 => go depth none
    else if c = opening then go (depth + 1) none
    else if c = '\'' || c = '"' then go depth (some c)
    else go depth none

/-- The text up to a closing backquote, and the text behind it. -/
def backquoted : List Char → Option (List Char × List Char)
  | [] => none
  | '\\' :: c :: rest =>
    (backquoted rest).map fun (a, b) =>
      (if c = '\x60' || c = '\\' || c = '$' then c :: a else '\\' :: c :: a, b)
  | c :: rest =>
    if c = '\x60' then some ([], rest)
    else (backquoted rest).map fun (a, b) => (c :: a, b)

def isSpecial (c : Char) : Bool := "?$#@*!-".toList.contains c || c.isDigit

/-- The name at the start of a text between braces; behind it stands what is to be changed. -/
def bracedName (s : List Char) : List Char :=
  match s.takeWhile isNameChar, s with
  | [], c :: _ => if isSpecial c then [c] else []
  | name, _ => name

def readDollar (quoted : Bool) (s : List Char) : Option (Part × List Char) :=
  match s with
  | '(' :: rest =>
    (enclosed '(' ')' 0 none rest).map fun (inside, after) =>
      match inside with
      | '(' :: sum =>
        if sum.getLast? = some ')' then (.sum sum.dropLast quoted, after)
        else (.output inside quoted, after)
      | _ => (.output inside quoted, after)
  | '\x7b' :: rest =>
    (enclosed '\x7b' '\x7d' 0 none rest).map fun (inside, after) =>
      match inside with
      | ['#'] => (.parameter ['#'] [] quoted, after)
      | '#' :: name => (.parameter name ['#', '#', '#'] quoted, after)
      | _ =>
        let name := bracedName inside
        (.parameter name (inside.drop name.length) quoted, after)
  | c :: rest =>
    if isSpecial c then some (.parameter [c] [] quoted, rest)
    else if isNameChar c then
      some (.parameter (s.takeWhile isNameChar) [] quoted, s.dropWhile isNameChar)
    else some (.literal ['$'] quoted, s)
  | [] => some (.literal ['$'] quoted, [])

/-- The parts up to a closing double quote, or all of them where none is waited for. -/
def quotedParts (closes : Bool) : Nat → List Char → Option (Word × List Char)
  | 0, _ => none
  | _, [] => if closes then none else some ([], [])
  | fuel + 1, c :: rest =>
    let go (part : Part) (rest : List Char) : Option (Word × List Char) :=
      (quotedParts closes fuel rest).map fun (parts, rest) => (part :: parts, rest)
    if closes && c = '"' then some ([], rest)
    else if c = '\\' then
      match rest with
      | '\n' :: rest => quotedParts closes fuel rest
      | d :: rest' =>
        if d = '$' || d = '\x60' || d = '\\' || closes && d = '"' then go (.literal [d] true) rest'
        else go (.literal ['\\'] true) rest
      | [] => go (.literal ['\\'] true) []
    else if c = '$' then (readDollar true rest).bind fun (part, rest) => go part rest
    else if c = '\x60' then
      (backquoted rest).bind fun (source, rest) => go (.output source true) rest
    else go (.literal [c] true) rest

/-- The text up to a single quote, and the text behind it. -/
def singleQuoted (s : List Char) : Option (List Char × List Char) :=
  match s.dropWhile (· ≠ '\'') with
  | _ :: rest => some (s.takeWhile (· ≠ '\''), rest)
  | [] => none

/-- The parts of a word up to a character that ends it. -/
def wordParts (stops : Char → Bool) : Nat → List Char → Option (Word × List Char)
  | 0, _ => none
  | _, [] => some ([], [])
  | fuel + 1, c :: rest =>
    let go (parts : Word) (rest : List Char) : Option (Word × List Char) :=
      (wordParts stops fuel rest).map fun (more, rest) => (parts ++ more, rest)
    if stops c then some ([], c :: rest)
    else if c = '\\' then
      match rest with
      | '\n' :: rest => wordParts stops fuel rest
      | d :: rest => go [.literal [d] true] rest
      | [] => go [.literal ['\\'] true] []
    else if c = '\'' then
      (singleQuoted rest).bind fun (text, rest) => go [.literal text true] rest
    else if c = '"' then
      (quotedParts true (rest.length + 1) rest).bind fun (parts, rest) =>
        go (.literal [] true :: parts) rest
    else if c = '$' then (readDollar false rest).bind fun (part, rest) => go [part] rest
    else if c = '\x60' then
      (backquoted rest).bind fun (source, rest) => go [.output source false] rest
    else go [.literal [c] false] rest

/-- The text of a word that has nothing but unquoted characters. -/
def plainText? : Word → Option (List Char)
  | [] => some []
  | .literal text false :: rest => (plainText? rest).map (text ++ ·)
  | _ :: _ => none

/-- The text of a word as the end of a text that is written in the script, and whether any of it was
quoted. -/
def endText (w : Word) : List Char × Bool :=
  (w.flatMap fun p => match p with
    | .literal text _ => text
    | .parameter name _ _ => '$' :: name
    | .output source _ => source
    | .sum source _ => source,
    w.any fun p => match p with
    | .literal _ quoted => quoted
    | _ => false)

/-- The marks of a script; the longer ones come first. -/
def marks : List String :=
  ["<<-", "&&", "||", ";;", "<<", ">>", ">&", "<&", ">|", ";", "&", "|", "<", ">", "(", ")"]

def endsWord (c : Char) : Bool := " \t\n;&|<>()".toList.contains c

/-- The lines of a written-out text up to the one that ends it, and the lines behind that. -/
def bodyLines (stripped : Bool) (ending : List Char) :
    List (List Char) → List (List Char) × List (List Char)
  | [] => ([], [])
  | line :: rest =>
    let line := if stripped then line.dropWhile (· = '\t') else line
    if line = ending then ([], rest)
    else
      let (body, after) := bodyLines stripped ending rest
      (line :: body, after)

/-- The words and signs of a script, from a line on. -/
def signs : Nat → Nat → List Char → List Placed
  | 0, _, _ => []
  | _, _, [] => []
  | fuel + 1, line, c :: rest =>
    if c = ' ' || c = '\t' then signs fuel line rest
    else if c = '#' then signs fuel line (rest.dropWhile (· ≠ '\n'))
    else if c = '\n' then ⟨.mark "\n", line⟩ :: signs fuel (line + 1) rest
    else if c = '\\' && rest.head? = some '\n' then signs fuel (line + 1) (rest.drop 1)
    else
      match marks.find? fun m => startsWith (c :: rest) m.toList with
      | some mark =>
        let rest := (c :: rest).drop mark.length
        if mark = "<<" || mark = "<<-" then
          let rest := rest.dropWhile fun c => c = ' ' || c = '\t'
          match wordParts endsWord (rest.length + 1) rest with
          | none => [⟨.broken "Unterminated quoted string", line⟩]
          | some (word, rest) =>
            let (ending, quoted) := endText word
            let here := rest.takeWhile (· ≠ '\n')
            let below := (rest.dropWhile (· ≠ '\n')).drop 1
            let (body, after) := bodyLines (mark = "<<-") ending (lines below)
            let text := body.flatMap (· ++ ['\n'])
            let parts : Word :=
              if quoted then [.literal text true]
              else ((quotedParts false (text.length + 1) text).map (·.1)).getD []
            ⟨.here parts, line⟩ :: signs fuel line (here ++ '\n' :: joinWith '\n' after)
        else ⟨.mark mark, line⟩ :: signs fuel line rest
      | none =>
        match wordParts endsWord (rest.length + 2) (c :: rest) with
        | none => [⟨.broken "Unterminated quoted string", line⟩]
        | some (word, after) =>
          let used := (c :: rest).take (rest.length + 1 - after.length)
          let number := (plainText? word).filter fun s =>
            s.all Char.isDigit && (after.head? = some '<' || after.head? = some '>')
          let sign : Sign :=
            match number with
            | some digits => .descriptor ((String.ofList digits).toNat?.getD 0)
            | none => .word word
          ⟨sign, line⟩ :: signs fuel (line + used.count '\n') after

def signsOf (s : List Char) : List Placed := signs (s.length + 1) 1 s

end PromptRunner.Child.Script
