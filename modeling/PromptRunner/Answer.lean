import PromptRunner.Text.Blank

/-!
# The program in an answer

A model is asked for a program and answers with text. The program may stand in a fenced block with
prose around it, or be the whole answer. The lines are looked at from the top. A fence before any
line that looks like code opens the block, which runs to the next fence or to the end; a line that
looks like code before any fence makes the whole answer the program. Where neither gives anything
but blanks, the whole answer stands.

What is answered is always trimmed.
-/

namespace PromptRunner.Answer

open PromptRunner.Text

def fence : List Char := "```".toList

/-- What a line begins with that shows that an answer is bare code. -/
def markers : List (List Char) := ["#!/usr/bin/env python".toList, "import ".toList]

/-- Whether a line opens or closes a block. -/
def isFence (line : List Char) : Bool := startsWith (trim line) fence

/-- Whether a line is bare code. -/
def isMarker (line : List Char) : Bool := markers.any (startsWith (trim line))

def block (lines : List (List Char)) : List (List Char) := lines.takeWhile (!isFence ·)

/-- The lines that hold the program, looking from the top; `all` are the lines of the answer. -/
def captured (all : List (List Char)) : List (List Char) → List (List Char)
  | [] => []
  | line :: rest =>
    if isFence line then block rest
    else if isMarker line then all
    else captured all rest

def code (answer : List Char) : List Char :=
  let all := lines answer
  let found := trim (unlines (captured all all))
  if found.isEmpty then trim answer else found

def extractCode (answer : String) : String := String.ofList (code answer.toList)

end PromptRunner.Answer
