import PromptRunner.Text.Hex
import PromptRunner.Text.Printable

/-!
# Text in quotation marks

A value that may hold anything is shown to the user between quotation marks. The marks and the
backslash are written after a backslash, the usual controls by their letters, and every other
character that would leave no ink, or would melt into its neighbour, as its number in braces.
The apostrophe stands for itself in a text and is escaped in a path, whose writer escapes as for a
single character.
-/

namespace PromptRunner.Text

def numbered (c : Char) : List Char :=
  ['\\', 'u', '\x7b'] ++ hexNumber c.toNat ++ ['\x7d']

/-- A character as it stands between quotation marks. -/
def quotedChar (apostrophe : Bool) (c : Char) : List Char :=
  match c with
  | '\x00' => ['\\', '0']
  | '\t' => ['\\', 't']
  | '\r' => ['\\', 'r']
  | '\n' => ['\\', 'n']
  | '\\' => ['\\', '\\']
  | '"' => ['\\', '"']
  | _ =>
    if c = '\'' then if apostrophe then ['\\', '\''] else [c]
    else if isExtending c || !isPrintable c then numbered c
    else [c]

def quoted (s : String) : String :=
  String.ofList ('"' :: s.toList.flatMap (quotedChar false) ++ ['"'])

def quotedPath (s : String) : String :=
  String.ofList ('"' :: s.toList.flatMap (quotedChar true) ++ ['"'])

def quotedOption (show_ : String → String) : Option String → String
  | none => "None"
  | some s => "Some(" ++ show_ s ++ ")"

end PromptRunner.Text
