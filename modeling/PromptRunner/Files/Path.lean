import PromptRunner.Text.Blank
import PromptRunner.Text.Utf8

/-!
# Paths as text

A path is a text whose parts stand between slashes. Joining and taking the parent work on the text
alone and look at no file: doubled slashes, single dots and parents stay as they are written, and
only what stands behind the last part is dropped. `steps` is what a path means to the system that
follows it: into a name, up to the parent, or staying where it is, which still asks for a directory.
-/

namespace PromptRunner.Files

open PromptRunner.Text

/-- One part of a path that is being followed. -/
inductive Step where
  | stay
  | up
  | into (name : String)
  deriving DecidableEq, Repr

namespace Path

def isAbsolute (path : String) : Bool :=
  match path.toList with
  | '/' :: _ => true
  | _ => false

/-- A path below another one, or the path itself if it starts at the root. -/
def join (base path : String) : String :=
  if isAbsolute path then path
  else
    match base.toList.getLast? with
    | none => path
    | some '/' => base ++ path
    | some _ => base ++ "/" ++ path

/-- The parts of a path between its slashes, empty ones too. -/
def pieces (path : List Char) : List (List Char) := cutAt '/' path

/-- Whether a part names nothing of its own. -/
def isIdle (piece : List Char) : Bool := piece = [] || piece = ['.']

/-- Parts, the last one first, without the idle ones behind the last that is not; the dot that a
relative path begins with is not idle. -/
def dropIdle (absolute : Bool) : List (List Char) → List (List Char)
  | [] => []
  | piece :: before =>
    if piece = [] then dropIdle absolute before
    else if piece = ['.'] && (absolute || before ≠ []) then dropIdle absolute before
    else piece :: before

/-- The path without its last part; the root and the empty path have no parent. -/
def parent? (path : String) : Option String :=
  let absolute := isAbsolute path
  let body := if absolute then path.toList.drop 1 else path.toList
  match dropIdle absolute (pieces body).reverse with
  | [] => none
  | _ :: before =>
    let rest := joinWith '/' (dropIdle absolute before).reverse
    some (String.ofList (if absolute then '/' :: rest else rest))

def stepOf (piece : List Char) : Step :=
  if isIdle piece then .stay
  else if piece = ['.', '.'] then .up
  else .into (String.ofList piece)

def steps (path : String) : List Step := (pieces path.toList).map stepOf

def endsInSlash (path : String) : Bool := path.toList.getLast? = some '/'

/-- A path without the slashes at its end, of which the root keeps one. -/
def withoutSlashes (path : String) : String :=
  match path.toList.reverse.dropWhile (· = '/') with
  | [] => if path.isEmpty then "" else "/"
  | rest => String.ofList rest.reverse

def lastPiece (path : String) : String :=
  String.ofList ((pieces path.toList).getLast?.getD [])

example : parent? "/a//b.py" = some "/a" ∧ parent? "./a" = some "." ∧ parent? "a" = some "" := by
  decide +kernel

example : parent? "/" = none ∧ parent? "" = none ∧ parent? "x/./b/." = some "x" := by
  decide +kernel

end Path

end PromptRunner.Files
