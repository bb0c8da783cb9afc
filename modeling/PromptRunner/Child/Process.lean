import PromptRunner.Files.Operations
import PromptRunner.Settings.Environment

/-!
# Programs that are run

A program is started with arguments, in a directory, with variables and with something to read; it
changes files, writes to two outputs, and ends with a status or is killed by a signal. All that the
rest of this library knows of programs is a `Launcher`, which does all of this or says why the
program cannot be started.
-/

namespace PromptRunner.Child

open PromptRunner.Files PromptRunner.Text

/-- A program about to be started: its name or path, its arguments, and what surrounds it. -/
structure Process where
  program : String
  arguments : List String
  tree : Tree
  cwd : Location
  environment : Environment
  input : Bytes
  now : Int

/-- How a program ended. -/
inductive Ending where
  | exited (status : Nat)
  | killed (signal : Nat)
  deriving DecidableEq, Repr

/-- What a program did. -/
structure Finished where
  ending : Ending
  tree : Tree
  output : Bytes
  errors : Bytes

abbrev Launcher := Process → Except IoError Finished

/-- The status that an ending counts as: a signal counts from 128. -/
def Ending.status : Ending → Nat
  | .exited status => status
  | .killed signal => 128 + signal

end PromptRunner.Child
