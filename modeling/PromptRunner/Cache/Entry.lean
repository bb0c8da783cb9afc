import PromptRunner.Json.Record
import PromptRunner.Json.Writer

/-!
# A cached answer as a document

An entry is kept as an object with four fields, over several lines. Reading it back asks for all
four, takes them in any order or as a plain list, and lets other fields pass.
-/

namespace PromptRunner.Cache

open PromptRunner.Json PromptRunner.Number

/-- An answer with what it answers, and when it was given, in seconds. -/
structure Entry where
  model : String
  prompt : String
  content : String
  timestamp : Binary
  deriving DecidableEq, Repr

namespace Entry

def fields : List (RecordField Entry) :=
  [ .of "model" true (readText "a string") fun v e => { e with model := v },
    .of "prompt" true (readText "a string") fun v e => { e with prompt := v },
    .of "content" true (readText "a string") fun v e => { e with content := v },
    .of "timestamp" true (readReal "f64") fun v e => { e with timestamp := v } ]

/-- What the fields start with before they are read. -/
def blank : Entry := ⟨"", "", "", .finite false (.zero binary64)⟩

/-- An entry, read from a document. -/
def read : Reader Entry := readRecord "CacheEntry" fields blank

def parse (text : String) : Except Json.Failure Entry := readWhole read text.toList

def document (e : Entry) : Value :=
  .object
    [ ("model", .string e.model), ("prompt", .string e.prompt), ("content", .string e.content),
      ("timestamp", .number (.real e.timestamp)) ]

def text (e : Entry) : String := String.ofList e.document.pretty

end Entry

end PromptRunner.Cache
