import PromptRunner.Cache.Entry
import PromptRunner.Files.Operations

/-!
# Looking up and storing answers

An answer is looked up by the path of its file. How old a file may be is given in seconds: zero
sets no limit, below zero nothing is looked up, and a file that is too old is removed. What cannot
be read or is no entry counts as missing.

An answer is stored under a temporary name next to its file and then moved over it, so that whoever
looks it up meanwhile finds the old document or the new one. Both are written as steps that a
reader may think of as interleaved with those of other processes: a lookup is a glance at the file
and then its removal or its reading, and storing is making the directory, making the temporary file,
writing it, and moving it.
-/

namespace PromptRunner.Cache

open PromptRunner.Files PromptRunner.Number

/-- A second in billionths. -/
def second : Int := 1000000000

/-- How long ago a file was written; a file of the future is new. -/
def ageOf (now modified : Int) : Int := max 0 (now - modified)

/-- What the first glance at a file says. -/
inductive Glance where
  | missing
  | expired
  | valid
  deriving DecidableEq, Repr

def isExpired (now limit modified : Int) : Bool :=
  0 < limit && limit * second ≤ ageOf now modified

def glance (t : Tree) (cwd : Location) (now limit : Int) (path : String) : Glance :=
  if limit < 0 then .missing
  else
    match stat t cwd path with
    | .ok (_, .file f) => if isExpired now limit f.modified then .expired else .valid
    | _ => .missing

def readAnswer (t : Tree) (cwd : Location) (path : String) : Option String :=
  match readText t cwd path with
  | .error _ => none
  | .ok text =>
    match Entry.parse text with
    | .ok e => some e.content
    | .error _ => none

/-- The tree without a file that may already be gone. -/
def discard (t : Tree) (cwd : Location) (path : String) : Tree :=
  match removeFile t cwd path with
  | .ok t => t
  | .error _ => t

/-- The answer at a path, if there is one that is not too old, and the tree after looking. -/
def lookup (t : Tree) (cwd : Location) (now limit : Int) (path : String) :
    Option String × Tree :=
  match glance t cwd now limit path with
  | .missing => (none, t)
  | .expired => (none, discard t cwd path)
  | .valid => (readAnswer t cwd path, t)

/-- The name of the temporary file behind an answer. -/
def temporaryName : TemporaryName := ⟨".llmexec-", ".tmp"⟩

/-- A temporary file filled and moved to its path; it is gone afterwards in either case. -/
def publish (t : Tree) (cwd : Location) (now : Int) (temporary path : String)
    (content : Text.Bytes) : Except IoError Unit × Tree :=
  match writeFile t cwd now temporary content with
  | .error e => (.error e, discard t cwd temporary)
  | .ok t =>
    match rename t cwd temporary path with
    | .error e => (.error e, discard t cwd temporary)
    | .ok t => (.ok (), t)

/-- An entry stored at a path, and the tree afterwards. -/
def store (t : Tree) (cwd : Location) (now : Int) (names : List String) (path : String)
    (entry : Entry) : Except IoError Unit × Tree :=
  let parent := (Path.parent? path).getD ""
  match createDirectories t cwd parent with
  | .error (e, t) => (.error e, t)
  | .ok t =>
    match createTemporary t cwd now parent temporaryName names with
    | .error e => (.error e, t)
    | .ok (temporary, t) => publish t cwd now temporary path (Text.bytesOf entry.text)

/-- A moment in seconds, as entries keep it: whole seconds and the fraction of one are brought into
the format each, and then added. -/
@[irreducible]
def timestamp (now : Int) : Binary :=
  let whole := binary64.round (now.toNat / second.toNat) 1
  let fraction := binary64.round (now.toNat % second.toNat) second.toNat
  match whole.bind fun x => fraction.bind (binary64.add x) with
  | some x => .finite false x
  | none => .finite false (.zero binary64)

end PromptRunner.Cache
