import PromptRunner.Failure
import PromptRunner.Files.Operations
import PromptRunner.Text.Blank

/-!
# The request

What the user wants done comes as one argument. If it names a file, the request is what the file
says, without the blanks around it; otherwise the argument is the request. A first line that names
an interpreter is no part of the request, and a request of blanks is none.
-/

namespace PromptRunner

open PromptRunner.Text PromptRunner.Files

/-- Where a request came from. -/
inductive Origin where
  | file (path : String)
  | inline
  deriving DecidableEq, Repr

/-- What the user wants done. -/
structure Request where
  text : String
  origin : Origin
  deriving DecidableEq, Repr

namespace Request

def scriptPath? (r : Request) : Option String :=
  match r.origin with
  | .file path => some path
  | .inline => none

/-- A text behind its first line, if that names an interpreter. -/
def withoutInterpreter (s : List Char) : List Char :=
  if startsWith s ['#', '!'] then trim ((s.dropWhile (· ≠ '\n')).drop 1) else s

/-- The request in a text, wherever it came from. -/
def ofContent (content : List Char) (origin : Origin) : Except Failure Request :=
  let text := withoutInterpreter content
  if isAllBlank text then .error .emptyRequest else .ok ⟨String.ofList text, origin⟩

def resolve (t : Tree) (cwd : Location) (argument : String) : Except Failure Request :=
  if isFile t cwd argument then
    match readText t cwd argument with
    | .error e => .error (.unreadableScript argument e)
    | .ok content => ofContent (trim content.toList) (.file argument)
  else ofContent argument.toList .inline

end Request

/-- A text behind its first line, if that names an interpreter. -/
def stripShebang (s : String) : String := String.ofList (Request.withoutInterpreter s.toList)

end PromptRunner
