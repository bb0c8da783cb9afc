import PromptRunner.Text.Blank

/-!
# Which vendor serves a model

A model is named by its vendor's prefix and a name, or by the name alone. A prefix decides the
vendor and is not sent; without one, the beginning of the name does, in either case of letters,
and whatever begins otherwise goes to the vendor of the most common wire format.
-/

namespace PromptRunner.Provider

open PromptRunner.Text

/-- A vendor of models. -/
inductive Vendor where
  | gemini
  | openAi
  | anthropic
  | openRouter
  deriving DecidableEq, Repr

namespace Vendor

def all : List Vendor := [.gemini, .openAi, .anthropic, .openRouter]

def selector : Vendor → String
  | .gemini => "gemini/"
  | .openAi => "openai/"
  | .anthropic => "anthropic/"
  | .openRouter => "openrouter/"

def selected? (model : List Char) : Option Vendor :=
  all.find? fun v => startsWith model v.selector.toList

def ofModel (model : String) : Vendor :=
  match selected? model.toList with
  | some v => v
  | none =>
    let name := model.toList.map Char.toLower
    if startsWith name "gemini".toList then .gemini
    else if startsWith name "claude".toList then .anthropic
    else .openAi

/-- A model as it is called on the wire: without the prefix that selected the vendor. -/
def wireModel (model : String) : String :=
  match selected? model.toList with
  | some v => String.ofList (model.toList.drop v.selector.length)
  | none => model

def name : Vendor → String
  | .gemini => "gemini"
  | .openAi => "openai"
  | .anthropic => "anthropic"
  | .openRouter => "openrouter"

/-- What a vendor is called in what the user gets to read. -/
def label : Vendor → String
  | .gemini => "Gemini"
  | .openAi => "openai"
  | .anthropic => "Anthropic"
  | .openRouter => "openrouter"

/-- The variable that a vendor's key is taken from. -/
def keyVariable : Vendor → String
  | .gemini => "GEMINI_API_KEY"
  | .openAi => "OPENAI_API_KEY"
  | .anthropic => "ANTHROPIC_API_KEY"
  | .openRouter => "OPENROUTER_API_KEY"

/-- Where a vendor is found unless the settings say otherwise. -/
def home : Vendor → String
  | .gemini => "https://generativelanguage.googleapis.com/v1beta"
  | .openAi => "https://api.openai.com/v1"
  | .anthropic => "https://api.anthropic.com/v1"
  | .openRouter => "https://openrouter.ai/api/v1"

end Vendor

end PromptRunner.Provider
