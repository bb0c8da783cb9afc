import PromptRunner.Settings.Document
import PromptRunner.Text.Blank

/-!
# Settings from the environment

Variables override what the settings file says, one field each, and a variable of blanks counts as
not set. The directories of the user, where the settings file and the cache are looked for, come
from variables as well.
-/

namespace PromptRunner

open PromptRunner.Files

/-- The variables of a process, the first of a name being the one that counts. -/
abbrev Environment := List (String × String)

namespace Settings

def inked (lookUp : String → Option String) (name : String) : Option String :=
  (lookUp name).filter Text.hasInk

/-- A setting of the environment before one of the file. -/
def override (value : Option α) (previous : α) : α := value.getD previous

def withEnvironment (s : Settings) (lookUp : String → Option String) : Settings :=
  let get := inked lookUp
  { s with
    model := override (get "LLMEXEC_MODEL") s.model
    interpreter := override (get "LLMEXEC_PYTHON") s.interpreter
    cacheDirectory := (get "LLMEXEC_CACHE_DIR").or s.cacheDirectory
    temporaryDirectory := (get "LLMEXEC_TEMP_DIR").or s.temporaryDirectory
    accesses :=
      { gemini :=
          { s.accesses.gemini with
            key := ((get "GEMINI_API_KEY").or (get "GOOGLE_API_KEY")).or s.accesses.gemini.key }
        openAi :=
          { key := (get "OPENAI_API_KEY").or s.accesses.openAi.key
            address := (get "OPENAI_BASE_URL").or s.accesses.openAi.address }
        anthropic :=
          { s.accesses.anthropic with
            key := (get "ANTHROPIC_API_KEY").or s.accesses.anthropic.key }
        openRouter :=
          { s.accesses.openRouter with
            key := (get "OPENROUTER_API_KEY").or s.accesses.openRouter.key } } }

/-- The user's home directory; one that is not set is the one of the account. -/
def homeDirectory (env : Environment) : String :=
  match env.lookup "HOME" with
  | some home => if home.isEmpty then "/root" else home
  | none => "/root"

/-- A directory of the user: where a variable says, if that is a path from the root, or else below
the home directory. -/
def userDirectory (env : Environment) (variable_ below : String) : String :=
  match (env.lookup variable_).filter Path.isAbsolute with
  | some path => path
  | none => Path.join (homeDirectory env) below

def filePath (env : Environment) : String :=
  Path.join (Path.join (userDirectory env "XDG_CONFIG_HOME" ".config") "llmexec") "config.json"

/-- The settings of a run: those of the file, overridden by the environment. -/
def load (t : Tree) (cwd : Location) (env : Environment) : Except Failure Settings :=
  match ofFile t cwd (filePath env) with
  | .ok s => .ok (s.withEnvironment fun name => env.lookup name)
  | .error e => .error e

end Settings

end PromptRunner
