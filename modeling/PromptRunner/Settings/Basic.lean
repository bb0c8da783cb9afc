import PromptRunner.Provider.Vendor
import PromptRunner.Text.Quoted

/-!
# Settings

Which model to ask, which interpreter to run, where to keep answers and temporary scripts, how long
to wait, and for each vendor a key and an address. `shown` is how settings appear to a reader, who
learns whether there is a key but not which.
-/

namespace PromptRunner

open PromptRunner.Text

/-- What is needed to reach a vendor. -/
structure Access where
  key : Option String
  address : Option String
  deriving DecidableEq, Repr

/-- What is needed to reach each vendor. -/
structure Accesses where
  gemini : Access
  openAi : Access
  anthropic : Access
  openRouter : Access
  deriving DecidableEq, Repr

/-- What a run is set to do. -/
structure Settings where
  model : String
  interpreter : String
  cacheDirectory : Option String
  temporaryDirectory : Option String
  timeout : Nat
  accesses : Accesses
  deriving DecidableEq, Repr

def Access.unset : Access := ⟨none, none⟩

def Accesses.unset : Accesses := ⟨.unset, .unset, .unset, .unset⟩

namespace Accesses

def of (a : Accesses) : Provider.Vendor → Access
  | .gemini => a.gemini
  | .openAi => a.openAi
  | .anthropic => a.anthropic
  | .openRouter => a.openRouter

end Accesses

namespace Settings

def standard : Settings where
  model := "gemini/gemini-2.5-flash"
  interpreter := "python3"
  cacheDirectory := none
  temporaryDirectory := none
  timeout := 120
  accesses := .unset

end Settings

/-- A name and the fields of a record, as they are shown. -/
def shownRecord (name : String) (fields : List (String × String)) : String :=
  name ++ " \x7b " ++ ", ".intercalate (fields.map fun (f, v) => f ++ ": " ++ v) ++ " \x7d"

def shownKey (key : Option String) : String :=
  quotedOption quoted (key.map fun _ => "[REDACTED]")

def Access.shown (a : Access) : String :=
  shownRecord "ProviderConfig"
    [("api_key", shownKey a.key), ("api_base", quotedOption quoted a.address)]

def Accesses.shown (a : Accesses) : String :=
  shownRecord "ProvidersConfig"
    [("gemini", a.gemini.shown), ("openai", a.openAi.shown), ("anthropic", a.anthropic.shown),
      ("openrouter", a.openRouter.shown)]

def Settings.shown (s : Settings) : String :=
  shownRecord "Config"
    [("model", quoted s.model), ("python", quoted s.interpreter),
      ("cache_dir", quotedOption quotedPath s.cacheDirectory),
      ("temp_dir", quotedOption quotedPath s.temporaryDirectory),
      ("request_timeout_secs", toString s.timeout), ("providers", s.accesses.shown)]

end PromptRunner
