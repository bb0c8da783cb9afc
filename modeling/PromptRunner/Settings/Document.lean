import PromptRunner.Failure
import PromptRunner.Files.Operations
import PromptRunner.Json.Record
import PromptRunner.Json.Writer
import PromptRunner.Settings.Basic

/-!
# Settings as a document

Settings are kept as an object; any field may be left out and then keeps its standard value. A
file that is not there means the standard settings, while a file that cannot be read, or does not
hold settings, is a failure that names it.
-/

namespace PromptRunner

open PromptRunner.Json PromptRunner.Files

namespace Access

def fields : List (RecordField Access) :=
  [ .of "api_key" false (readOptional (readText "a string")) fun v a => { a with key := v },
    .of "api_base" false (readOptional (readText "a string")) fun v a => { a with address := v } ]

/-- An access, read from a document. -/
def read : Reader Access := readRecord "ProviderConfig" fields .unset

def document (a : Access) : Value :=
  .object [("api_key", .ofString? a.key), ("api_base", .ofString? a.address)]

end Access

namespace Accesses

def fields : List (RecordField Accesses) :=
  [ .of "gemini" false Access.read fun v a => { a with gemini := v },
    .of "openai" false Access.read fun v a => { a with openAi := v },
    .of "anthropic" false Access.read fun v a => { a with anthropic := v },
    .of "openrouter" false Access.read fun v a => { a with openRouter := v } ]

/-- The accesses, read from a document. -/
def read : Reader Accesses := readRecord "ProvidersConfig" fields .unset

def document (a : Accesses) : Value :=
  .object
    [ ("gemini", a.gemini.document), ("openai", a.openAi.document),
      ("anthropic", a.anthropic.document), ("openrouter", a.openRouter.document) ]

end Accesses

namespace Settings

def fields : List (RecordField Settings) :=
  [ .of "model" false (readText "a string") fun v s => { s with model := v },
    .of "python" false (readText "a string") fun v s => { s with interpreter := v },
    .of "cache_dir" false (readOptional (readText "path string")) fun v s =>
      { s with cacheDirectory := v },
    .of "temp_dir" false (readOptional (readText "path string")) fun v s =>
      { s with temporaryDirectory := v },
    .of "request_timeout_secs" false (readNatural (Nat.pow 2 64) "u64") fun v s =>
      { s with timeout := v },
    .of "providers" false Accesses.read fun v s => { s with accesses := v } ]

/-- Settings, read from a document. -/
def read : Reader Settings := readRecord "Config" fields .standard

def parse (text : String) : Except Json.Failure Settings := readWhole read text.toList

def document (s : Settings) : Value :=
  .object
    [ ("model", .string s.model), ("python", .string s.interpreter),
      ("cache_dir", .ofString? s.cacheDirectory), ("temp_dir", .ofString? s.temporaryDirectory),
      ("request_timeout_secs", .number (.natural s.timeout)),
      ("providers", s.accesses.document) ]

def ofFile (t : Tree) (cwd : Location) (path : String) : Except Failure Settings :=
  match readText t cwd path with
  | .ok text =>
    match parse text with
    | .ok s => .ok s
    | .error e => .error (.settings ("Invalid config file " ++ path ++ ": " ++ e.message))
  | .error e =>
    if e.isNotFound then .ok .standard
    else .error (.settings ("Failed to read config file " ++ path ++ ": " ++ e.message))

end Settings

end PromptRunner
