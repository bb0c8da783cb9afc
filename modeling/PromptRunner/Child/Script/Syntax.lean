import PromptRunner.Child.Script.Word

/-!
# Commands of a script

A script is a row of commands. A command runs a program, or puts commands together: one after the
other, one only if the other succeeds or fails, each reading what the one before wrote, chosen or
repeated by what others answer. The words of a command stay as they are written until it is run.
-/

namespace PromptRunner.Child.Script

/-- Where a redirection leads. -/
inductive Course where
  | read (path : Word)
  | write (path : Word)
  | append (path : Word)
  | like (descriptor : Word)
  | text (body : Word)
  deriving DecidableEq, Repr

/-- A descriptor that is led somewhere else. -/
structure Redirection where
  descriptor : Nat
  course : Course
  deriving DecidableEq, Repr

/-- A command. -/
inductive Command where
  | nothing
  | simple (line : Nat) (assignments : List (String × Word)) (words : List Word)
      (redirections : List Redirection)
  | sequence (first second : Command)
  | both (first second : Command)
  | either (first second : Command)
  | negated (command : Command)
  | pipe (source target : Command)
  | group (body : Command) (redirections : List Redirection)
  | apart (body : Command) (redirections : List Redirection)
  | choose (condition body otherwise : Command)
  | repeated (until_ : Bool) (condition body : Command)
  | forEach (name : String) (words : Option (List Word)) (body : Command)
  | select (subject : Word) (branches : List (List Word × Command))
  | define (name : String) (body : Command)
  deriving Repr

/-- Why a script cannot be read on, and where. -/
structure Misplaced where
  line : Nat
  complaint : String
  deriving DecidableEq, Repr

end PromptRunner.Child.Script
