import PromptRunner.Files.Error
import PromptRunner.Files.Path
import PromptRunner.Files.Tree

/-!
# Following a path

A path is followed from the root or from the current directory, one part at a time. Every part
asks that the place reached so far is a directory, every name but the last has to be there, and a
link is replaced by what it points to; whether the last part is replaced too is up to the asker.
At most forty links are replaced, so that following ends also where links form a circle.

The answer is the location of the last part, which may be free: that is what creating asks for.
-/

namespace PromptRunner.Files

open PromptRunner.Text

/-- The longest name, and one more than the longest path, in bytes. -/
def nameLimit : Nat := 255

/-- One more than the longest path, in bytes. -/
def pathLimit : Nat := 4096

/-- How many links a path may lead through. -/
def linkLimit : Nat := 40

def startOf (cwd : Location) (path : String) : Location :=
  if Path.isAbsolute path then [] else cwd

/-- The way a path goes, where `through` goes on behind a link that was replaced. -/
def followWith (t : Tree) (follow : Bool)
    (through : Location → List Step → Except Errno Location) :
    Location → List Step → Except Errno Location
  | loc, [] => .ok loc
  | loc, step :: rest =>
    if !t.isDirectoryAt loc then .error .notDirectory
    else
      match step with
      | .stay => followWith t follow through loc rest
      | .up => followWith t follow through loc.tail rest
      | .into name =>
        if nameLimit < byteLength name.toList then .error .nameTooLong
        else
          let next : Location := name :: loc
          match t.node? next with
          | some (.link target) =>
            if rest.isEmpty && !follow then .ok next
            else through (startOf loc target) (Path.steps target ++ rest)
          | some _ => followWith t follow through next rest
          | none => if rest.isEmpty then .ok next else .error .noEntry

/-- The way a path goes through at most so many links. -/
def followSteps (t : Tree) (follow : Bool) : Nat → Location → List Step → Except Errno Location
  | 0 => followWith t follow fun _ _ => .error .tooManyLinks
  | links + 1 => followWith t follow (followSteps t follow links)

/-- The location that a path names, from a current directory. -/
def resolve (t : Tree) (cwd : Location) (follow : Bool) (path : String) :
    Except IoError Location :=
  if path.toList.contains '\x00' then .error .nulInPath
  else if path.isEmpty then .error (.system .noEntry)
  else if pathLimit ≤ byteLength path.toList then .error (.system .nameTooLong)
  else
    match followSteps t follow linkLimit (startOf cwd path) (Path.steps path) with
    | .ok loc => .ok loc
    | .error e => .error (.system e)

/-- What a path names, links followed. -/
def stat (t : Tree) (cwd : Location) (path : String) : Except IoError (Location × Node) :=
  match resolve t cwd true path with
  | .error e => .error e
  | .ok loc =>
    match t.node? loc with
    | some node => .ok (loc, node)
    | none => .error (.system .noEntry)

/-- Whether a path names a regular file, links followed. -/
def isFile (t : Tree) (cwd : Location) (path : String) : Bool :=
  match stat t cwd path with
  | .ok (_, .file _) => true
  | _ => false

/-- Whether a path names a directory, links followed. -/
def isDirectory (t : Tree) (cwd : Location) (path : String) : Bool :=
  match stat t cwd path with
  | .ok (_, .directory) => true
  | _ => false

end PromptRunner.Files
