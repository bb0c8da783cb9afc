import PromptRunner.Json.Value

/-!
# Documents as text

A document is written in one line without blanks, as it goes over the wire, or over several lines
with an indentation of two, as it is kept in a file. An empty list or object stays closed in both
forms. A floating-point number past every magnitude has no numeral and is written as null.
-/

namespace PromptRunner.Json

open PromptRunner.Number

def stringText (s : String) : List Char := '"' :: escaped s.toList ++ ['"']

def Number.text : Number → List Char
  | .natural n => Nat.toDigits 10 n
  | .negative n => '-' :: Nat.toDigits 10 n
  | .real x => (x.text? binary64 layout64).getD "null".toList
  | .single x => (x.text? binary32 layout32).getD "null".toList

/-- A value without brackets, or one with brackets and nothing in them. -/
def Value.flat : Value → List Char
  | .null => "null".toList
  | .boolean true => "true".toList
  | .boolean false => "false".toList
  | .number n => n.text
  | .string s => stringText s
  | .list _ => ['[', ']']
  | .object _ => ['\x7b', '\x7d']

mutual

def Value.compact : Value → List Char
  | .list items => '[' :: compactItems true items ++ [']']
  | .object members => '\x7b' :: compactMembers true members ++ ['\x7d']
  | v => v.flat

/-- The items of a list in one line; only the first has no separator before it. -/
def compactItems : Bool → List Value → List Char
  | _, [] => []
  | first, v :: vs => (if first then [] else [',']) ++ v.compact ++ compactItems false vs

def compactMembers : Bool → List (String × Value) → List Char
  | _, [] => []
  | first, (name, v) :: ms =>
    (if first then [] else [',']) ++ stringText name ++ ':' :: v.compact ++
      compactMembers false ms

end

/-- A new line, indented so many levels. -/
def newLine (level : Nat) : List Char := '\n' :: List.replicate (2 * level) ' '

mutual

/-- A value over several lines, the first of them not indented. -/
def Value.prettyAt : Nat → Value → List Char
  | level, .list (v :: vs) =>
    '[' :: prettyItems (level + 1) true (v :: vs) ++ newLine level ++ [']']
  | level, .object (m :: ms) =>
    '\x7b' :: prettyMembers (level + 1) true (m :: ms) ++ newLine level ++ ['\x7d']
  | _, v => v.flat

/-- The items of a list, each on a line of its own. -/
def prettyItems : Nat → Bool → List Value → List Char
  | _, _, [] => []
  | level, first, v :: vs =>
    (if first then [] else [',']) ++ newLine level ++ v.prettyAt level ++
      prettyItems level false vs

/-- The members of an object, each on a line of its own. -/
def prettyMembers : Nat → Bool → List (String × Value) → List Char
  | _, _, [] => []
  | level, first, (name, v) :: ms =>
    (if first then [] else [',']) ++ newLine level ++ stringText name ++ [':', ' '] ++
      v.prettyAt level ++ prettyMembers level false ms

end

def Value.pretty (v : Value) : List Char := v.prettyAt 0

def Value.ofString? : Option String → Value
  | none => .null
  | some s => .string s

end PromptRunner.Json
