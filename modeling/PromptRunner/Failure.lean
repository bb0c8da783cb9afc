import PromptRunner.Files.Error
import PromptRunner.Json.Fault

/-!
# Why a run does not succeed

A failure is one of a few causes. Two of them have a cause of their own behind them, and a third
kind only passes on what the files or a document had to say. `message` is what a failure says of
itself, `causes` what stands behind it, outermost first, and `account` is all of it in one line.
-/

namespace PromptRunner

/-- Why a run does not succeed. -/
inductive Failure where
  | unreadableScript (path : String) (cause : Files.IoError)
  | emptyRequest
  | generation (cause : Failure)
  | provider (text : String)
  | unauthorized (text : String)
  | rateLimited (text : String)
  | settings (text : String)
  | notLaunched (program : String) (cause : Files.IoError)
  | io (cause : Files.IoError)
  | document (cause : Json.Failure)
  deriving DecidableEq, Repr

namespace Failure

def message : Failure → String
  | .unreadableScript path _ => "Error reading script file '" ++ path ++ "'"
  | .emptyRequest => "Empty script content"
  | .generation _ => "LLM API error"
  | .provider text => "Provider error: " ++ text
  | .unauthorized text => "Unauthorized: " ++ text
  | .rateLimited text => "Rate limited: " ++ text
  | .settings text => "Configuration error: " ++ text
  | .notLaunched program _ => "Failed to launch '" ++ program ++ "'"
  | .io cause => cause.message
  | .document cause => cause.message

/-- What stands behind a failure, outermost first. -/
def causes : Failure → List String
  | .unreadableScript _ cause => [cause.message]
  | .generation cause => cause.message :: cause.causes
  | .notLaunched _ cause => [cause.message]
  | _ => []

def account (f : Failure) : String := ": ".intercalate (f.message :: f.causes)

end Failure

end PromptRunner
