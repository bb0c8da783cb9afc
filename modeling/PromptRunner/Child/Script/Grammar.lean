import PromptRunner.Child.Script.Syntax

/-!
# Reading commands

Commands are read from words and signs, one line at a time: a line that can be read is a command
even if a later one cannot. Inside a command that has an end of its own, line ends only part the
commands in it.

Reading is bounded by a number that every step takes one from; the bound handed in is far above what
the words and signs that are left can need.
-/

namespace PromptRunner.Child.Script

open PromptRunner.Text

def lineOf (ps : List Placed) : Nat := ((ps.head?).map (·.line)).getD 1

/-- Words that have a meaning where a command starts. -/
def keywords : List String :=
  ["if", "then", "else", "elif", "fi", "do", "done", "case", "esac", "while", "until", "for",
    "\x7b", "\x7d", "!", "in"]

def keyword? : List Placed → Option String
  | ⟨.word parts, _⟩ :: _ =>
    ((plainText? parts).map String.ofList).filter fun s => keywords.contains s
  | _ => none

def mark? : List Placed → Option String
  | ⟨.mark m, _⟩ :: _ => some m
  | _ => none

/-- What stands at the front, as complaints show it. -/
def shownSign (ps : List Placed) : String :=
  match keyword? ps, ps with
  | some k, _ => "\"" ++ k ++ "\""
  | none, [] => "end of file"
  | none, ⟨.mark "\n", _⟩ :: _ => "newline"
  | none, ⟨.mark m, _⟩ :: _ => "\"" ++ m ++ "\""
  | none, ⟨.here _, _⟩ :: _ => "redirection"
  | none, _ :: _ => "word"

/-- A complaint about what stands at the front, with what should stand there if that is known. -/
def misplaced (ps : List Placed) (expected : Option String) : Misplaced :=
  match ps with
  | ⟨.broken complaint, line⟩ :: _ => ⟨line, complaint⟩
  | ps =>
    let wanted :=
      match expected with
      | some e => " (expecting \"" ++ e ++ "\")"
      | none => ""
    ⟨lineOf ps, shownSign ps ++ " unexpected" ++ wanted⟩

/-- What stands behind a keyword that has to be there. -/
def afterKeyword (k : String) (ps : List Placed) : Except Misplaced (List Placed) :=
  if keyword? ps = some k then .ok (ps.drop 1) else .error (misplaced ps (some k))

/-- What stands behind a mark that has to be there. -/
def afterMark (m : String) (ps : List Placed) : Except Misplaced (List Placed) :=
  if mark? ps = some m then .ok (ps.drop 1) else .error (misplaced ps (some m))

def pastLineEnds (ps : List Placed) : List Placed :=
  ps.dropWhile fun p => p.sign = .mark "\n"

/-- Whether commands end here: at the end of what they stand in. -/
def isEnd (ps : List Placed) : Bool :=
  ps.isEmpty || mark? ps = some ")" || mark? ps = some ";;" ||
    (match keyword? ps with
      | some k => ["then", "else", "elif", "fi", "do", "done", "esac", "\x7d"].contains k
      | none => false)

/-- An assignment: a name, an equals sign, and a word. -/
def assignment? (name : List Char) : Word → Option (String × Word)
  | .literal [c] false :: rest =>
    if c = '=' && !name.isEmpty then some (String.ofList name.reverse, rest)
    else if isNameChar c && !(name.isEmpty && c.isDigit) then assignment? (c :: name) rest
    else none
  | _ => none

/-- The descriptor that a mark redirects if none is given, and how it redirects it. -/
def course? (m : String) (path : Word) : Option (Nat × Course) :=
  match m with
  | "<" => some (0, .read path)
  | ">" => some (1, .write path)
  | ">|" => some (1, .write path)
  | ">>" => some (1, .append path)
  | ">&" => some (1, .like path)
  | "<&" => some (0, .like path)
  | _ => none

/-- The redirection at the front, if there is one, and what stands behind it. -/
def redirection? (ps : List Placed) : Option (Redirection × List Placed) :=
  let (given, ps) : Option Nat × List Placed :=
    match ps with
    | ⟨.descriptor n, _⟩ :: rest => (some n, rest)
    | ps => (none, ps)
  match ps with
  | ⟨.mark m, _⟩ :: ⟨.word path, _⟩ :: rest =>
    (course? m path).map fun (usual, course) => (⟨given.getD usual, course⟩, rest)
  | ⟨.here body, _⟩ :: rest => some (⟨given.getD 0, .text body⟩, rest)
  | _ => none

def redirections : Nat → List Placed → List Redirection × List Placed
  | 0, ps => ([], ps)
  | fuel + 1, ps =>
    match redirection? ps with
    | some (r, ps) =>
      let (more, ps) := redirections fuel ps
      (r :: more, ps)
    | none => ([], ps)

/-- The assignments, words and redirections of one program. -/
def simpleParts : Nat → Bool → List Placed →
    List (String × Word) × List Word × List Redirection × List Placed
  | 0, _, ps => ([], [], [], ps)
  | fuel + 1, named, ps =>
    match redirection? ps with
    | some (r, ps) =>
      let (assignments, words, rs, ps) := simpleParts fuel named ps
      (assignments, words, r :: rs, ps)
    | none =>
      match ps with
      | ⟨.word w, _⟩ :: rest =>
        match if named then none else assignment? [] w with
        | some a =>
          let (assignments, words, rs, ps) := simpleParts fuel named rest
          (a :: assignments, words, rs, ps)
        | none =>
          let (assignments, words, rs, ps) := simpleParts fuel true rest
          (assignments, w :: words, rs, ps)
      | ps => ([], [], [], ps)

def wordList : List Placed → List Word × List Placed
  | ⟨.word w, _⟩ :: rest =>
    let (ws, rest) := wordList rest
    (w :: ws, rest)
  | ps => ([], ps)

/-- The patterns of a branch, up to its closing bracket. -/
def patternList : Nat → List Placed → Except Misplaced (List Word × List Placed)
  | 0, ps => .error (misplaced ps none)
  | fuel + 1, ps =>
    match ps with
    | ⟨.word w, _⟩ :: rest =>
      match mark? rest with
      | some "|" =>
        match patternList fuel (rest.drop 1) with
        | .ok (ws, rest) => .ok (w :: ws, rest)
        | .error e => .error e
      | some ")" => .ok ([w], rest.drop 1)
      | _ => .error (misplaced rest (some ")"))
    | ps => .error (misplaced ps none)

def redirected (c : Command) (rs : List Redirection) : Command :=
  if rs.isEmpty then c
  else
    match c with
    | .apart body [] => .apart body rs
    | c => .group c rs

/-- A command that runs by itself: it has nothing to read, and how it ends does not matter. -/
def aside (c : Command) : Command :=
  let silent : Redirection := ⟨0, .read [.literal "/dev/null".toList true]⟩
  .either (.apart c [silent]) (.simple 1 [] [[.literal [':'] true]] [])

mutual

/-- Commands up to an end; outside of all others a line ends them too. -/
def commands (inner : Bool) : Nat → List Placed → Except Misplaced (Command × List Placed)
  | 0, ps => .error (misplaced ps none)
  | fuel + 1, ps =>
    let ps := if inner then pastLineEnds ps else ps
    if isEnd ps then .ok (.nothing, ps)
    else
      match chain fuel ps with
      | .error e => .error e
      | .ok (first, rest) =>
        let parted :=
          match mark? rest with
          | some ";" => true
          | some "&" => true
          | some "\n" => inner
          | _ => false
        if !parted then .ok (first, rest)
        else
          let first := if mark? rest = some "&" then aside first else first
          let rest := rest.drop 1
          if !inner && mark? rest = some "\n" then .ok (first, rest)
          else
            match commands inner fuel rest with
            | .ok (.nothing, rest) => .ok (first, rest)
            | .ok (second, rest) => .ok (.sequence first second, rest)
            | .error e => .error e

def chain : Nat → List Placed → Except Misplaced (Command × List Placed)
  | 0, ps => .error (misplaced ps none)
  | fuel + 1, ps =>
    match pipeline fuel ps with
    | .error e => .error e
    | .ok (first, rest) => chainFrom fuel first rest

/-- What depends on the success of a command that was read. -/
def chainFrom : Nat → Command → List Placed → Except Misplaced (Command × List Placed)
  | 0, _, ps => .error (misplaced ps none)
  | fuel + 1, first, ps =>
    let join (f : Command → Command → Command) : Except Misplaced (Command × List Placed) :=
      match pipeline fuel (pastLineEnds (ps.drop 1)) with
      | .ok (second, rest) => chainFrom fuel (f first second) rest
      | .error e => .error e
    match mark? ps with
    | some "&&" => join .both
    | some "||" => join .either
    | _ => .ok (first, ps)

def pipeline : Nat → List Placed → Except Misplaced (Command × List Placed)
  | 0, ps => .error (misplaced ps none)
  | fuel + 1, ps =>
    if keyword? ps = some "!" then
      match pipeline fuel (ps.drop 1) with
      | .ok (c, rest) => .ok (.negated c, rest)
      | .error e => .error e
    else
      match command fuel ps with
      | .error e => .error e
      | .ok (first, rest) =>
        if mark? rest = some "|" then
          match pipeline fuel (pastLineEnds (rest.drop 1)) with
          | .ok (second, rest) => .ok (.pipe first second, rest)
          | .error e => .error e
        else .ok (first, rest)

def command : Nat → List Placed → Except Misplaced (Command × List Placed)
  | 0, ps => .error (misplaced ps none)
  | fuel + 1, ps =>
    let finish (c : Command) (rest : List Placed) : Except Misplaced (Command × List Placed) :=
      let (rs, rest) := redirections rest.length rest
      .ok (redirected c rs, rest)
    match keyword? ps, mark? ps with
    | some "if", _ =>
      match choice fuel (ps.drop 1) with
      | .ok (c, rest) => finish c rest
      | .error e => .error e
    | some "while", _ => loop fuel false ps
    | some "until", _ => loop fuel true ps
    | some "for", _ => each fuel (ps.drop 1)
    | some "case", _ =>
      match ps.drop 1 with
      | ⟨.word subject, _⟩ :: rest =>
        match afterKeyword "in" (pastLineEnds rest) with
        | .error e => .error e
        | .ok rest =>
          match branches fuel rest with
          | .ok (bs, rest) => finish (.select subject bs) rest
          | .error e => .error e
      | rest => .error (misplaced rest none)
    | some "\x7b", _ =>
      match commands true fuel (ps.drop 1) with
      | .error e => .error e
      | .ok (body, rest) =>
        match afterKeyword "\x7d" rest with
        | .ok rest => finish (.group body []) rest
        | .error e => .error e
    | some _, _ => .error (misplaced ps none)
    | none, some "(" =>
      match commands true fuel (ps.drop 1) with
      | .error e => .error e
      | .ok (body, rest) =>
        match afterMark ")" rest with
        | .ok rest => finish (.apart body []) rest
        | .error e => .error e
    | none, _ =>
      match ps with
      | ⟨.word w, _⟩ :: ⟨.mark "(", _⟩ :: rest =>
        match afterMark ")" rest with
        | .error e => .error e
        | .ok rest =>
          match command fuel (pastLineEnds rest) with
          | .ok (body, rest) =>
            .ok (.define (String.ofList ((plainText? w).getD [])) body, rest)
          | .error e => .error e
      | ps =>
        let (assignments, words, rs, rest) := simpleParts ps.length false ps
        if assignments.isEmpty && words.isEmpty && rs.isEmpty then .error (misplaced ps none)
        else if mark? rest = some "(" then .error (misplaced rest none)
        else .ok (.simple (lineOf ps) assignments words rs, rest)

def choice : Nat → List Placed → Except Misplaced (Command × List Placed)
  | 0, ps => .error (misplaced ps none)
  | fuel + 1, ps =>
    match commands true fuel ps with
    | .error e => .error e
    | .ok (condition, rest) =>
      match afterKeyword "then" rest with
      | .error e => .error e
      | .ok rest =>
        match commands true fuel rest with
        | .error e => .error e
        | .ok (body, rest) =>
          match keyword? rest with
          | some "elif" =>
            match choice fuel (rest.drop 1) with
            | .ok (otherwise, rest) => .ok (.choose condition body otherwise, rest)
            | .error e => .error e
          | some "else" =>
            match commands true fuel (rest.drop 1) with
            | .error e => .error e
            | .ok (otherwise, rest) =>
              match afterKeyword "fi" rest with
              | .ok rest => .ok (.choose condition body otherwise, rest)
              | .error e => .error e
          | _ =>
            match afterKeyword "fi" rest with
            | .ok rest => .ok (.choose condition body .nothing, rest)
            | .error e => .error e

/-- A body between its two keywords, with the redirections behind it. -/
def body : Nat → (Command → Command) → List Placed → Except Misplaced (Command × List Placed)
  | 0, _, ps => .error (misplaced ps none)
  | fuel + 1, f, ps =>
    match afterKeyword "do" ps with
    | .error e => .error e
    | .ok rest =>
      match commands true fuel rest with
      | .error e => .error e
      | .ok (c, rest) =>
        match afterKeyword "done" rest with
        | .error e => .error e
        | .ok rest =>
          let (rs, rest) := redirections rest.length rest
          .ok (redirected (f c) rs, rest)

def loop : Nat → Bool → List Placed → Except Misplaced (Command × List Placed)
  | 0, _, ps => .error (misplaced ps none)
  | fuel + 1, until_, ps =>
    match commands true fuel (ps.drop 1) with
    | .error e => .error e
    | .ok (condition, rest) => body fuel (.repeated until_ condition) rest

/-- A repetition for each of some words, behind its keyword. -/
def each : Nat → List Placed → Except Misplaced (Command × List Placed)
  | 0, ps => .error (misplaced ps none)
  | fuel + 1, ps =>
    match ps with
    | ⟨.word w, _⟩ :: rest =>
      let name := String.ofList ((plainText? w).getD [])
      let rest := pastLineEnds rest
      if keyword? rest = some "in" then
        let (words, rest) := wordList (rest.drop 1)
        let rest := if mark? rest = some ";" then rest.drop 1 else rest
        body fuel (.forEach name (some words)) (pastLineEnds rest)
      else
        let rest := if mark? rest = some ";" then rest.drop 1 else rest
        body fuel (.forEach name none) (pastLineEnds rest)
    | ps => .error (misplaced ps none)

/-- The branches of a selection, up to its end. -/
def branches : Nat → List Placed → Except Misplaced (List (List Word × Command) × List Placed)
  | 0, ps => .error (misplaced ps none)
  | fuel + 1, ps =>
    let ps := pastLineEnds ps
    if keyword? ps = some "esac" then .ok ([], ps.drop 1)
    else
      let ps := if mark? ps = some "(" then ps.drop 1 else ps
      match patternList ps.length ps with
      | .error e => .error e
      | .ok (patterns, rest) =>
        match commands true fuel rest with
        | .error e => .error e
        | .ok (c, rest) =>
          if mark? rest = some ";;" then
            match branches fuel (rest.drop 1) with
            | .ok (bs, rest) => .ok ((patterns, c) :: bs, rest)
            | .error e => .error e
          else
            match afterKeyword "esac" rest with
            | .ok rest => .ok ([(patterns, c)], rest)
            | .error e => .error e

end

/-- The commands of the next line that has any, and what stands behind it. -/
def nextCommand (ps : List Placed) : Except Misplaced (Option (Command × List Placed)) :=
  let ps := pastLineEnds ps
  match ps with
  | [] => .ok none
  | ps =>
    match commands false (16 * ps.length + 16) ps with
    | .error e => .error e
    | .ok (c, rest) =>
      if rest.isEmpty || mark? rest = some "\n" then .ok (some (c, rest))
      else .error (misplaced rest none)

end PromptRunner.Child.Script
