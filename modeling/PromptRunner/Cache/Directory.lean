import PromptRunner.Files.Operations
import PromptRunner.Settings.Environment

/-!
# The directory of the cache

A project that has a cache directory of its own uses it. Otherwise the settings name one, or it is
the user's.
-/

namespace PromptRunner.Cache

open PromptRunner.Files

def localName : String := ".llmexec-cache"

/-- The cache directory for a current directory, given by its path. -/
def directory (t : Tree) (cwd : Location) (current : String) (configured : Option String)
    (env : Environment) : String :=
  let own := Path.join current localName
  if isDirectory t cwd own then own
  else
    match configured with
    | some path => path
    | none => Path.join (Settings.userDirectory env "XDG_CACHE_HOME" ".cache") "llmexec"

/-- The cache directory made, if it is missing. -/
def ensureDirectory (t : Tree) (cwd : Location) (path : String) : Except (IoError × Tree) Tree :=
  createDirectories t cwd path

end PromptRunner.Cache
