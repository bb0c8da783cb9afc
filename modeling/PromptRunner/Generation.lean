import PromptRunner.Cache.FileName
import PromptRunner.Cache.Store
import PromptRunner.Failure
import PromptRunner.Instruction
import PromptRunner.Provider.Conversation
import PromptRunner.Provider.Vendor

/-!
# Answers, from the cache or from a provider

A prompt is answered from the cache if it may be used and holds an answer; otherwise the provider is
asked, once, and its answer is kept. Keeping it is no part of answering: an answer that cannot be
stored is an answer all the same. Whatever goes wrong with the provider is one failure with the
provider's own behind it.

`Outcome` tells what a step did besides answering: what became of the files, and what the provider
was asked, if it was.
-/

namespace PromptRunner

open PromptRunner.Files PromptRunner.Provider PromptRunner.Number

/-- What surrounds a step: where it runs, when, and which names its temporary files may get. -/
structure Surroundings where
  cwd : Location
  now : Int
  names : List String
  deriving DecidableEq, Repr

/-- A provider, as far as an answer goes. -/
abbrev Ask := Query → Except Failure Completion

/-- What is to be answered and how far the cache may help: the age limit in seconds, and whether
it is left alone. -/
structure Demand where
  model : String
  prompt : String
  limit : Int
  noCache : Bool
  deriving DecidableEq, Repr

/-- What came of a demand. -/
structure Outcome where
  result : Except Failure String
  tree : Tree
  asked : Option Query

namespace Generation

/-- A low temperature keeps answers close to the one that was kept. -/
def temperature : Binary := binary32.ofDecimal false 1 (-1)

def maxTokens : Nat := 4000

def query (model prompt : String) : Query where
  messages := [⟨.system, instruction⟩, ⟨.user, prompt⟩]
  model := some (Vendor.wireModel model)
  options := ⟨some maxTokens, some temperature⟩

/-- Whether the cache is read and written. -/
def usesCache (d : Demand) : Bool := !d.noCache && 0 ≤ d.limit

/-- An answer as it is kept and handed on. -/
def kept (c : Completion) : String := Text.trimmed c.content

/-- The provider asked, with the answer kept at a path if there is one to keep it at. -/
def askProvider (ask : Ask) (s : Surroundings) (t : Tree) (path? : Option String) (d : Demand) :
    Outcome :=
  let q := query d.model d.prompt
  match ask q with
  | .error e => ⟨.error (.generation e), t, some q⟩
  | .ok c =>
    let answer := kept c
    match path? with
    | none => ⟨.ok answer, t, some q⟩
    | some path =>
      let entry : Cache.Entry := ⟨d.model, d.prompt, answer, Cache.timestamp s.now⟩
      ⟨.ok answer, (Cache.store t s.cwd s.now s.names path entry).2, some q⟩

def generate (ask : Ask) (s : Surroundings) (t : Tree) (directory : String) (d : Demand) :
    Outcome :=
  if usesCache d then
    let path := Cache.filePath directory d.model d.prompt
    match Cache.lookup t s.cwd s.now d.limit path with
    | (some answer, t) => ⟨.ok answer, t, none⟩
    | (none, t) => askProvider ask s t (some path) d
  else askProvider ask s t none d

end Generation

end PromptRunner
