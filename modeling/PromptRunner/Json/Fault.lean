import PromptRunner.Number.Shortest
import PromptRunner.Text.Quoted
import PromptRunner.Text.Utf8

/-!
# What can be wrong with a document

A reader of documents fails with a cause and a place. The cause is one of `Problem`: the text is
not a document, or it is one but not of the wanted shape. The place is where the reader stood,
given as the text it had not consumed, and sometimes one byte or more ahead of that, where it was
looking. Counting lines and columns is left to the end: `Position.of` does it from the whole text,
in bytes, so that no reader has to carry a counter.
-/

namespace PromptRunner.Json

open PromptRunner.Text PromptRunner.Number

/-- What was found where something else was wanted. -/
inductive Got where
  | null
  | boolean (b : Bool)
  | integer (i : Int)
  | floating (x : Binary)
  | string (s : String)
  | sequence
  | map
  deriving DecidableEq, Repr

/-- Why a text is not the wanted document. -/
inductive Problem where
  | valueMissing
  | stringOpen
  | listOpen
  | objectOpen
  | notAValue
  | notALiteral
  | colonMissing
  | listSeparatorMissing
  | objectSeparatorMissing
  | trailingComma
  | trailingText
  | keyNotString
  | badNumber
  | numberOutOfRange
  | badEscape
  | controlInString
  | loneSurrogate
  | unfinishedSurrogate
  | tooDeep
  | missingField (name : String)
  | duplicateField (name : String)
  | wrongType (got : Got) (wanted : String)
  | wrongValue (got : Got) (wanted : String)
  | wrongLength (length : Nat) (wanted : String)
  deriving DecidableEq, Repr

/-- A cause, and the place as the text not consumed and a number of bytes into it. -/
structure Fault where
  problem : Problem
  rest : List Char
  ahead : Nat
  deriving DecidableEq, Repr

def Fault.here (p : Problem) (rest : List Char) : Fault := ⟨p, rest, 0⟩

def Fault.next (p : Problem) (rest : List Char) : Fault := ⟨p, rest, 1⟩

/-- The answer of a reader: a value and the text after it, or a fault. -/
abbrev Reading (α : Type) := Except Fault (α × List Char)

/-- A line, from one, and the bytes of it before a place. -/
structure Position where
  line : Nat
  column : Nat
  deriving DecidableEq, Repr

/-- The position so many bytes further on; a character that is not reached whole counts with the
bytes that are. -/
def Position.advance (p : Position) : Nat → List Char → Position
  | _, [] => p
  | bytes, c :: rest =>
    if byteWidth c ≤ bytes then
      let q : Position := if c = '\n' then ⟨p.line + 1, 0⟩ else ⟨p.line, p.column + byteWidth c⟩
      q.advance (bytes - byteWidth c) rest
    else ⟨p.line, p.column + bytes⟩

def Position.of (text : List Char) (fault : Fault) : Position :=
  Position.advance ⟨1, 0⟩ (byteLength text - byteLength fault.rest + fault.ahead) text

def Got.text : Got → String
  | .null => "null"
  | .boolean true => "boolean `true`"
  | .boolean false => "boolean `false`"
  | .integer i => "integer `" ++ toString i ++ "`"
  | .floating x => "floating point `" ++ x.text64?.getD "" ++ "`"
  | .string s => "string " ++ quoted s
  | .sequence => "sequence"
  | .map => "map"

def Problem.message : Problem → String
  | .valueMissing => "EOF while parsing a value"
  | .stringOpen => "EOF while parsing a string"
  | .listOpen => "EOF while parsing a list"
  | .objectOpen => "EOF while parsing an object"
  | .notAValue => "expected value"
  | .notALiteral => "expected ident"
  | .colonMissing => "expected `:`"
  | .listSeparatorMissing => "expected `,` or `]`"
  | .objectSeparatorMissing => "expected `,` or `\x7d`"
  | .trailingComma => "trailing comma"
  | .trailingText => "trailing characters"
  | .keyNotString => "key must be a string"
  | .badNumber => "invalid number"
  | .numberOutOfRange => "number out of range"
  | .badEscape => "invalid escape"
  | .controlInString =>
    "control character (\\u0000-\\u001F) found while parsing a string"
  | .loneSurrogate => "lone leading surrogate in hex escape"
  | .unfinishedSurrogate => "unexpected end of hex escape"
  | .tooDeep => "recursion limit exceeded"
  | .missingField name => "missing field `" ++ name ++ "`"
  | .duplicateField name => "duplicate field `" ++ name ++ "`"
  | .wrongType got wanted => "invalid type: " ++ got.text ++ ", expected " ++ wanted
  | .wrongValue got wanted => "invalid value: " ++ got.text ++ ", expected " ++ wanted
  | .wrongLength length wanted =>
    "invalid length " ++ toString length ++ ", expected " ++ wanted

/-- Why a whole text is not the wanted document, and where. -/
structure Failure where
  problem : Problem
  position : Position
  deriving DecidableEq, Repr

def Failure.message (f : Failure) : String :=
  f.problem.message ++ " at line " ++ toString f.position.line ++ " column " ++
    toString f.position.column

end PromptRunner.Json
