import PromptRunner.Files.Operations
import PromptRunner.Settings.Environment
import PromptRunner.Text.Alphanumeric
import PromptRunner.Text.Blank

/-!
# The file of variables

Variables that are not set can be set by a file, `.env`, in the current directory or the nearest one
above it. Each line of the file names a variable and a value, which may be quoted, may run over
several lines inside quotes, and may refer to variables by a dollar sign. What is set already stays,
so of two lines for one variable the first counts. The first line that cannot be read ends the
reading, and what was set before it stays set.
-/

namespace PromptRunner.CommandLine

open PromptRunner.Text PromptRunner.Files

namespace Variables

/-! ## Lines

A line that ends inside quotes, or behind a backslash or a blank, goes on in the next one. -/

/-- Where in a line reading is. -/
inductive Place where
  | plain
  | blank
  | escape
  | double
  | doubleEscape
  | single
  | singleEscape
  deriving DecidableEq, Repr

/-- The place behind a character outside of quotes. -/
def Place.enter (c : Char) (otherwise : Place) : Place :=
  if c = '\\' then .escape
  else if c = '"' then .double
  else if c = '\'' then .single
  else otherwise

def Place.after (p : Place) (c : Char) : Place :=
  match p with
  | .plain => enter c (if isBlank c && c ≠ '\n' && c ≠ '\r' then .blank else .plain)
  | .blank => enter c .plain
  | .escape => .plain
  | .double => if c = '\\' then .doubleEscape else if c = '"' then .plain else .double
  | .doubleEscape => .double
  | .single => if c = '\\' then .singleEscape else if c = '\'' then .plain else .single
  | .singleEscape => .single

/-- A line up to a comment, if one begins behind a blank; or else the place behind the line. -/
def beforeComment : Place → List Char → List Char × Option Place
  | p, [] => ([], some p)
  | p, c :: rest =>
    if p = .blank && c = '#' then ([], none)
    else
      let (before, place) := beforeComment (p.after c) rest
      (c :: before, place)

def withoutEnd (line : List Char) : List Char :=
  match line.reverse with
  | '\n' :: '\r' :: rest => rest.reverse
  | '\n' :: rest => rest.reverse
  | _ => line

/-- The lines of a file, each with what ends it. -/
def rawLines (s : List Char) : List (List Char) :=
  let pieces := lines s
  pieces.dropLast.map (· ++ ['\n']) ++
    (match pieces.getLast? with
      | some [] => []
      | some last => [last]
      | none => [])

/-- Lines put together where they belong together; the last is missing if it does not end. -/
def whole : List Char → Place → List (List Char) → List (Option (List Char))
  | _, place, [] => if place = .plain then [] else [none]
  | before, place, line :: rest =>
    if startsWith (trimStart (before ++ line)) ['#'] then some [] :: whole [] .plain rest
    else
      match beforeComment place line with
      | (text, none) => some (before ++ text) :: whole [] .plain rest
      | (text, some .plain) => some (withoutEnd (before ++ text)) :: whole [] .plain rest
      | (text, some place) => whole (before ++ text) place rest

/-! ## Values -/

/-- Where in a value reading is. -/
inductive Mode where
  | plain
  | escape (quoted : Bool)
  | single
  | double
  | name (quoted : Bool) (letters : List Char)
  | braced (quoted : Bool) (letters : List Char)
  | ending
  deriving DecidableEq, Repr

/-- The value of a name, with what the file has said so far behind the variables. -/
def referred (env : Environment) (seen : Environment) (letters : List Char) : List Char :=
  let name := String.ofList letters.reverse
  if name.isEmpty then []
  else (((env.lookup name).or (seen.lookup name)).getD "").toList

def Mode.outside (quoted : Bool) : Mode := if quoted then .double else .plain

def value? (env seen : Environment) : Mode → List Char → Option (List Char)
  | mode, [] =>
    match mode with
    | .plain => some []
    | .ending => some []
    | .escape quoted => if quoted then none else some []
    | .name quoted letters => if quoted then none else some (referred env seen letters)
    | .single => none
    | .double => none
    | .braced _ _ => none
  | mode, c :: rest =>
    let go (written : List Char) (mode : Mode) : Option (List Char) :=
      (value? env seen mode rest).map (written ++ ·)
    match mode with
    | .ending =>
      if c = ' ' || c = '\t' then go [] .ending
      else if c = '#' then some []
      else none
    | .escape quoted =>
      if "\\'\"$ ".toList.contains c then go [c] (.outside quoted)
      else if c = 'n' then go ['\n'] (.outside quoted)
      else none
    | .single => if c = '\'' then go [] .plain else go [c] .single
    | .name quoted letters =>
      if isAlphanumeric c then go [] (.name quoted (c :: letters))
      else if c = '\x7b' && letters.isEmpty then go [] (.braced quoted [])
      else
        let written := referred env seen letters
        if c = '$' then go written (.name quoted []) else go (written ++ [c]) (.outside quoted)
    | .braced quoted letters =>
      if c = '\x7d' then go (referred env seen letters) (.outside quoted)
      else go [] (.braced quoted (c :: letters))
    | .double =>
      if c = '$' then go [] (.name true [])
      else if c = '"' then go [] .plain
      else if c = '\\' then go [] (.escape true)
      else go [c] .double
    | .plain =>
      if c = '$' then go [] (.name false [])
      else if c = '\'' then go [] .single
      else if c = '"' then go [] .double
      else if c = '\\' then go [] (.escape false)
      else if c = ' ' || c = '\t' then go [] .ending
      else go [c] .plain

/-! ## Definitions -/

/-- A name at the start of a text, and the text behind it and behind blanks. -/
def name? (s : List Char) : Option (List Char × List Char) :=
  match s with
  | c :: _ =>
    if c.isAlpha || c = '_' then
      let name := s.takeWhile fun c => c.isAlphanum || c = '_' || c = '.'
      some (name, trimStart (s.drop name.length))
    else none
  | [] => none

/-- The name that a definition is for, and what stands behind its equals sign. A first word
`export` is no name unless the equals sign follows it. -/
def target? (s : List Char) : Option (List Char × List Char) :=
  match name? s with
  | none => none
  | some (name, '=' :: rest) => some (name, trimStart rest)
  | some (name, rest) =>
    if name = "export".toList then
      match name? rest with
      | some (name, '=' :: rest) => some (name, trimStart rest)
      | _ => none
    else none

/-- What a line says. -/
inductive Line where
  | nothing
  | definition (name : String) (value : Option String)
  | unreadable
  deriving DecidableEq, Repr

/-- What a line says, where names may be referred to. -/
def readLine (env seen : Environment) (line : List Char) : Line :=
  let s := trimStart (trimEnd line)
  if s.isEmpty || startsWith s ['#'] then .nothing
  else
    match target? s with
    | none => .unreadable
    | some (name, rest) =>
      if rest.isEmpty || startsWith rest ['#'] then .definition (String.ofList name) none
      else
        match value? env seen .plain rest with
        | none => .unreadable
        | some value => .definition (String.ofList name) (some (String.ofList value))

/-- The environment with what some lines define and it does not. -/
def define : Environment → Environment → List (Option (List Char)) → Environment
  | env, _, [] => env
  | env, _, none :: _ => env
  | env, seen, some line :: rest =>
    match readLine env seen line with
    | .nothing => define env seen rest
    | .unreadable => env
    | .definition name value =>
      let env := if (env.lookup name).isSome then env else env ++ [(name, value.getD "")]
      define env ((name, value.getD "") :: seen) rest

/-- The text of a file as far as it is text, cut behind the last line that is. -/
def textOf (bytes : Bytes) : List Char :=
  match decode? bytes with
  | some s => s
  | none => (go bytes.length bytes).flatten
where
  /-- Lines up to the first that is no text. -/
  go : Nat → Bytes → List (List Char)
    | 0, _ => []
    | fuel + 1, bytes =>
      let line := bytes.takeWhile (· ≠ 10)
      match decode? line with
      | none => []
      | some s =>
        if line.length = bytes.length then [s]
        else (s ++ ['\n']) :: go fuel (bytes.drop (line.length + 1))

/-- The environment with what a file of variables adds to it. -/
def read (env : Environment) (bytes : Bytes) : Environment :=
  let bytes := if [0xEF, 0xBB, 0xBF].isPrefixOf bytes then bytes.drop 3 else bytes
  define env [] (whole [] .plain (rawLines (textOf bytes)))

/-- The nearest file of variables in a directory or above it. -/
def find (t : Tree) : Location → Option Bytes
  | [] => fileIn []
  | name :: outer =>
    match fileIn (name :: outer) with
    | some bytes => some bytes
    | none => find t outer
where
  /-- The file in one directory. -/
  fileIn (loc : Location) : Option Bytes :=
    match readBytes t loc ".env" with
    | .ok bytes => some bytes
    | .error _ => none

/-- The environment of a run: what is set, and what the nearest file of variables adds. -/
def load (t : Tree) (cwd : Location) (env : Environment) : Environment :=
  match find t cwd with
  | some bytes => read env bytes
  | none => env

end Variables

end PromptRunner.CommandLine
