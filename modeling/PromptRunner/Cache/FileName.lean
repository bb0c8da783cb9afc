import PromptRunner.Digest.Sha256
import PromptRunner.Files.Path
import PromptRunner.Text.Blank

/-!
# The name of a cached answer

An answer is kept in a file of its own, whose name is derived from the model and the prompt that
it answers: a legible piece of the prompt, a legible piece of the model, and ten digits of a digest
of both, which keep apart what the legible pieces make alike. Only letters, digits, underscores
and hyphens stand in the pieces, so that the name never leads out of its directory.
-/

namespace PromptRunner.Cache

open PromptRunner.Text

def promptWidth : Nat := 30

/-- How many digits of the digest stand in the name. -/
def digestWidth : Nat := 10

/-- The characters that may stand in the legible pieces. -/
def isSafe (c : Char) : Bool := c.isAlphanum || c = '_' || c = '-'

/-- Periods and spaces become underscores. -/
def underscored (c : Char) : Char := if c = '.' || c = ' ' then '_' else c

/-- The piece of the prompt: what is safe of it, cut to the width. -/
def promptPiece (prompt : List Char) : List Char :=
  ((prompt.map underscored).filter isSafe).take promptWidth

def modelName (model : List Char) : List Char := ((cutAt '/' model).getLast?).getD []

/-- The piece of the model: what is safe of its name, with periods as underscores. -/
def modelPiece (model : List Char) : List Char :=
  ((modelName model).map fun c => if c = '.' then '_' else c).filter isSafe

theorem notMem_promptPiece {c : Char} (h : isSafe c = false) (prompt : List Char) :
    c ∉ promptPiece prompt := fun hmem =>
  Bool.eq_false_iff.1 h (List.mem_filter.1 (List.mem_of_mem_take hmem)).2

theorem notMem_modelPiece {c : Char} (h : isSafe c = false) (model : List Char) :
    c ∉ modelPiece model := fun hmem => Bool.eq_false_iff.1 h (List.mem_filter.1 hmem).2

/-- What is digested. -/
def digested (model prompt : String) : List Char := model.toList ++ '-' :: prompt.toList

def digestPiece (model prompt : String) : List Char :=
  (Digest.sha256Hex (encode (digested model prompt))).take digestWidth

def fileName (model prompt : String) : String :=
  String.ofList (promptPiece prompt.toList ++ '.' :: modelPiece model.toList ++
    '.' :: digestPiece model prompt ++ ".json".toList)

/-- The path of the file for a model and a prompt below a directory. -/
def filePath (directory model prompt : String) : String :=
  Files.Path.join directory (fileName model prompt)

end PromptRunner.Cache
