import PromptRunner.Files.Resolve

/-!
# Reading and changing files

The operations that the program asks of its files. An operation that changes the tree answers the
changed tree, or an error and with it no change; each of them changes one location, except for
`createDirectories`, which may make several before it meets an error and so answers the tree in
either case, and `rename`, which changes two.

Temporary files get a name between a given beginning and end. The names to try are handed in, and
the first one that is free is taken.
-/

namespace PromptRunner.Files

open PromptRunner.Text

def readBytes (t : Tree) (cwd : Location) (path : String) : Except IoError Bytes :=
  match stat t cwd path with
  | .error e => .error e
  | .ok (_, .file f) => .ok f.content
  | .ok _ => .error (.system .isDirectory)

def readText (t : Tree) (cwd : Location) (path : String) : Except IoError String :=
  match readBytes t cwd path with
  | .error e => .error e
  | .ok bytes =>
    match stringOf? bytes with
    | some s => .ok s
    | none => .error .notText

/-- A file with new content, made if it is not there. A path that ends in a slash can only mean a
directory. -/
def writeFile (t : Tree) (cwd : Location) (now : Int) (path : String) (content : Bytes) :
    Except IoError Tree :=
  match resolve t cwd true (Path.withoutSlashes path) with
  | .error e => .error e
  | .ok loc =>
    if Path.endsInSlash path then .error (.system .isDirectory)
    else
      match t.node? loc with
      | some (.file f) => .ok (t.put loc (.file { f with content := content, modified := now }))
      | none => .ok (t.put loc (.file ⟨content, now, false⟩))
      | some _ => .error (.system .isDirectory)

/-- A new file; nothing may be there. -/
def createFile (t : Tree) (cwd : Location) (now : Int) (path : String) (content : Bytes) :
    Except IoError Tree :=
  match resolve t cwd false path with
  | .error e => .error e
  | .ok loc =>
    match t.node? loc with
    | none => .ok (t.put loc (.file ⟨content, now, false⟩))
    | some _ => .error (.system .exists_)

/-- A new directory; nothing may be there. -/
def createDirectory (t : Tree) (cwd : Location) (path : String) : Except IoError Tree :=
  match resolve t cwd false (Path.withoutSlashes path) with
  | .error e => .error e
  | .ok loc =>
    match t.node? loc with
    | none => .ok (t.put loc .directory)
    | some _ => .error (.system .exists_)

/-- A directory with those that it lies in, as far as they are missing, where `above` makes the
parent. -/
def createMissing (above : Tree → Except (IoError × Tree) Tree) (t : Tree) (cwd : Location)
    (path : String) : Except (IoError × Tree) Tree :=
  match createDirectory t cwd path with
  | .ok t => .ok t
  | .error e =>
    if e = .system .noEntry then
      match above t with
      | .error e => .error e
      | .ok t =>
        match createDirectory t cwd path with
        | .ok t => .ok t
        | .error e => if isDirectory t cwd path then .ok t else .error (e, t)
    else if isDirectory t cwd path then .ok t
    else .error (e, t)

/-- `createDirectories` for a path of at most so many parts. -/
def createUpwards : Nat → Tree → Location → String → Except (IoError × Tree) Tree
  | 0, t, _, _ => .ok t
  | parts + 1, t, cwd, path =>
    if path.isEmpty then .ok t
    else
      match Path.parent? path with
      | none => .ok t
      | some parent => createMissing (createUpwards parts · cwd parent) t cwd path

/-- A directory with those that it lies in, as far as they are missing. -/
def createDirectories (t : Tree) (cwd : Location) (path : String) :
    Except (IoError × Tree) Tree :=
  createUpwards (path.toList.length + 1) t cwd path

def removeFile (t : Tree) (cwd : Location) (path : String) : Except IoError Tree :=
  match resolve t cwd false path with
  | .error e => .error e
  | .ok loc =>
    match t.node? loc with
    | none => .error (.system .noEntry)
    | some .directory => .error (.system .isDirectory)
    | some _ => .ok (t.erase loc)

/-- A file moved to another path, where it replaces a file or a link that is there. -/
def rename (t : Tree) (cwd : Location) (source target : String) : Except IoError Tree :=
  match resolve t cwd false source with
  | .error e => .error e
  | .ok old =>
    match resolve t cwd false target with
    | .error e => .error e
    | .ok new =>
      match t.node? old, t.node? new with
      | none, _ => .error (.system .noEntry)
      | some .directory, _ => .error (.system .isDirectory)
      | some _, some .directory => .error (.system .isDirectory)
      | some node, _ => .ok ((t.erase old).put new node)

/-- The names that a temporary file may get. -/
structure TemporaryName where
  start : String
  finish : String
  deriving DecidableEq, Repr

/-- A new file below an absolute directory, with the first of some names that is free; the answer
gives its path. -/
def createFresh (t : Tree) (cwd : Location) (now : Int) (base : String) (name : TemporaryName) :
    List String → Except IoError (String × Tree)
  | [] => .error (.temporary .noFreshName base)
  | middle :: others =>
    let path := Path.join base (name.start ++ middle ++ name.finish)
    match createFile t cwd now path [] with
    | .ok t => .ok (path, t)
    | .error e =>
      if e = .system .exists_ then createFresh t cwd now base name others
      else .error (.temporary e path)

/-- A new empty file in a directory, which is taken from the current one if it is relative. -/
def createTemporary (t : Tree) (cwd : Location) (now : Int) (directory : String)
    (name : TemporaryName) (middles : List String) : Except IoError (String × Tree) :=
  createFresh t cwd now (Path.join cwd.path directory) name middles

def changeDirectory (t : Tree) (cwd : Location) (path : String) : Except IoError Location :=
  match stat t cwd path with
  | .error e => .error e
  | .ok (loc, .directory) => .ok loc
  | .ok _ => .error (.system .notDirectory)

end PromptRunner.Files
