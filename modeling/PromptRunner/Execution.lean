import PromptRunner.Child.Process
import PromptRunner.Failure
import PromptRunner.Generation
import PromptRunner.Settings.Basic

/-!
# Running generated code

The code is written to a fresh file, the process moves to a directory, and the interpreter is
started with the path of the file. The file is gone afterwards, whatever happened in between; the
process stays where it moved to.

The file's path does not depend on the directory: it is made absolute before the move. The
interpreter is looked for after it.
-/

namespace PromptRunner

open PromptRunner.Files PromptRunner.Child PromptRunner.Text

/-- What runs code: an interpreter, and where the file for it is put if that is not the usual
place. -/
structure Runner where
  interpreter : String
  temporaryDirectory : Option String
  deriving DecidableEq, Repr

/-- What came of running code: a status, the files, where the process is, and what was written. -/
structure Execution where
  result : Except Failure Nat
  tree : Tree
  cwd : Location
  output : Bytes
  errors : Bytes

/-- The directory that a script lies in, from the root; a path without one is taken itself. -/
def workingDirectory (current path : String) : String :=
  let absolute := Path.join current path
  match Path.parent? absolute with
  | some parent => if parent.isEmpty then absolute else parent
  | none => absolute

namespace Runner

def scriptName : TemporaryName := ⟨"llmexec-", ".py"⟩

/-- The directory for temporary files that the system has. -/
def systemDirectory (env : Environment) : String := (env.lookup "TMPDIR").getD "/tmp"

def ofSettings (s : Settings) : Runner := ⟨s.interpreter, s.temporaryDirectory⟩

def failed (f : Failure) (t : Tree) (cwd : Location) : Execution := ⟨.error f, t, cwd, [], []⟩

/-- The tree without the file, if it is still there. -/
def removed (t : Tree) (cwd : Location) (script : String) : Tree :=
  match removeFile t cwd script with
  | .ok t => t
  | .error _ => t

/-- The interpreter started on a file, from a directory. -/
def start (r : Runner) (launch : Launcher) (s : Surroundings) (env : Environment) (input : Bytes)
    (t : Tree) (script directory : String) : Execution :=
  match changeDirectory t s.cwd directory with
  | .error e => failed (.io e) t s.cwd
  | .ok cwd =>
    match launch ⟨r.interpreter, [script], t, cwd, env, input, s.now⟩ with
    | .error e => failed (.notLaunched r.interpreter e) t cwd
    | .ok f => ⟨.ok f.ending.status, f.tree, cwd, f.output, f.errors⟩

def runIn (r : Runner) (launch : Launcher) (s : Surroundings) (env : Environment) (input : Bytes)
    (t : Tree) (code directory : String) : Execution :=
  match createTemporary t s.cwd s.now (r.temporaryDirectory.getD (systemDirectory env)) scriptName
      s.names with
  | .error e => failed (.io e) t s.cwd
  | .ok (script, t) =>
    match writeFile t s.cwd s.now script (bytesOf code) with
    | .error e => failed (.io e) (removed t s.cwd script) s.cwd
    | .ok t =>
      let x := r.start launch s env input t script directory
      { x with tree := removed x.tree x.cwd script }

/-- Code run from the directory of the script that asked for it. -/
def runFor (r : Runner) (launch : Launcher) (s : Surroundings) (env : Environment) (input : Bytes)
    (t : Tree) (code script : String) : Execution :=
  r.runIn launch s env input t code (workingDirectory s.cwd.path script)

end Runner

end PromptRunner
