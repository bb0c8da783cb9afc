import PromptRunner.Number.Binary

/-!
# What is said to a model and what it answers
-/

namespace PromptRunner.Provider

open PromptRunner.Number

/-- Who says something. -/
inductive Role where
  | system
  | user
  | assistant
  deriving DecidableEq, Repr

def Role.name : Role → String
  | .system => "system"
  | .user => "user"
  | .assistant => "assistant"

/-- Something said. -/
structure Message where
  role : Role
  content : String
  deriving DecidableEq, Repr

/-- How to answer; what is not set is left to the model. The temperature is a number of thirty-two
bits. -/
structure Options where
  maxTokens : Option Nat
  temperature : Option Binary
  deriving DecidableEq, Repr

/-- A question: what was said so far, how to answer, and which model to ask if it is not the one
that the provider stands for. -/
structure Query where
  messages : List Message
  model : Option String
  options : Options
  deriving DecidableEq, Repr

def countMax : Nat := Nat.pow 2 32 - 1

/-- How many tokens were read and written, and how many that is together. -/
structure Usage where
  prompt : Nat
  completion : Nat
  total : Nat
  deriving DecidableEq, Repr

/-- The counts, whose sum stops at the greatest count. -/
def Usage.of (prompt completion : Nat) : Usage :=
  ⟨prompt, completion, min (prompt + completion) countMax⟩

/-- An answer. -/
structure Completion where
  content : String
  usage : Option Usage
  deriving DecidableEq, Repr

def systemText? (messages : List Message) : Option String :=
  (messages.find? (·.role = .system)).map (·.content)

def spoken (messages : List Message) : List Message := messages.filter (·.role ≠ .system)

end PromptRunner.Provider
