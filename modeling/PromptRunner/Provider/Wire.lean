import PromptRunner.Json.Record
import PromptRunner.Json.Writer
import PromptRunner.Provider.Conversation
import PromptRunner.Provider.Vendor

/-!
# Questions and answers as documents

Three wire formats are spoken. In the first, the system's text and the conversation are apart, roles
have names of their own, and the members stand in the order of their names. In the second, all
that was said is one list. In the third, the first thing the system says is apart, and the length
of an answer is always limited.

An answer is read into what it holds: its text, if any, and its counts. The first format's answers
may hold text that is only thought aloud, which is passed over unless there is nothing else.
-/

namespace PromptRunner.Provider

open PromptRunner.Json PromptRunner.Number

/-- An optional member: left out when there is none. -/
def optionalMember (name : String) (v : Option Value) : List (String × Value) :=
  match v with
  | some v => [(name, v)]
  | none => []

def countValue (n : Nat) : Value := .number (.natural n)

namespace Gemini

def parts (text : String) : Value := .list [.object [("text", .string text)]]

def roleName : Role → String
  | .assistant => "model"
  | _ => "user"

/-- A temperature, which is widened to sixty-four bits. -/
def temperatureValue (x : Binary) : Value := .number (.real (binary64.convert x))

def body (q : Query) : Value :=
  .object <|
    [ ("contents", .list ((spoken q.messages).map fun m =>
        .object [("parts", parts m.content), ("role", .string (roleName m.role))])),
      ("generationConfig", .object <|
        optionalMember "maxOutputTokens" (q.options.maxTokens.map countValue) ++
        optionalMember "temperature" (q.options.temperature.map temperatureValue)) ] ++
    optionalMember "systemInstruction"
      ((systemText? q.messages).map fun text => .object [("parts", parts text)])

def texts (parts : List Value) : List String := parts.filterMap fun p => (p.get "text").string?

/-- Texts one behind the other, if there are any. -/
def joined? (texts : List String) : Option String :=
  if texts.isEmpty then none else some (String.join texts)

/-- The text of an answer: the parts that are not thought aloud, or else all of them. -/
def answerText? (answer : Value) : Option String :=
  match ((((answer.get "candidates").item 0).get "content").get "parts").items? with
  | none => none
  | some parts =>
    match joined? (texts (parts.filter fun p => !(p.get "thought").isTrue)) with
    | some text => some text
    | none => joined? (texts parts)

/-- A count, of which only the low thirty-two bits are kept. -/
def count? (v : Value) : Option Nat := v.natural?.map (· % Nat.pow 2 32)

def usage? (answer : Value) : Option Usage :=
  let counts := answer.get "usageMetadata"
  match count? (counts.get "promptTokenCount"), count? (counts.get "candidatesTokenCount") with
  | some p, some c => some (.of p c)
  | _, _ => none

end Gemini

/-- Something said, with the role and then the content. -/
def messageValue (m : Message) : Value :=
  .object [("role", .string m.role.name), ("content", .string m.content)]

def singleValue (x : Binary) : Value := .number (.single x)

/-- The two counts of an answer. -/
structure Counts where
  input : Nat
  output : Nat
  deriving DecidableEq, Repr

def readCounts (title input output : String) : Reader Counts :=
  readRecord title
    [ .of input true (readNatural (Nat.pow 2 32) "u32") fun v c => { c with input := v },
      .of output true (readNatural (Nat.pow 2 32) "u32") fun v c => { c with output := v } ]
    ⟨0, 0⟩

def Counts.usage (c : Counts) : Usage := .of c.input c.output

namespace ChatCompletions

def body (model : String) (q : Query) : Value :=
  .object <|
    [("model", .string model), ("messages", .list (q.messages.map messageValue))] ++
    optionalMember "temperature" (q.options.temperature.map singleValue) ++
    optionalMember "max_tokens" (q.options.maxTokens.map countValue)

/-- The text of one choice, if it has one. -/
def readMessage : Reader (Option String) :=
  readRecord "ResponseMessage"
    [.of "content" false (readOptional (readText "a string")) fun v _ => v] none

def readChoice : Reader (Option String) :=
  readRecord "Choice" [.of "message" true readMessage fun v _ => v] none

/-- An answer: the texts of its choices, and its counts. -/
structure Answer where
  choices : List (Option String)
  counts : Option Counts
  deriving DecidableEq, Repr

/-- An answer, read from a document. -/
def readAnswer : Reader Answer :=
  readRecord "ChatResponse"
    [ .of "choices" true (readList readChoice) fun v a => { a with choices := v },
      .of "usage" false (readOptional (readCounts "WireUsage" "prompt_tokens" "completion_tokens"))
        fun v a => { a with counts := v } ]
    ⟨[], none⟩

/-- The text of an answer: that of its first choice. -/
def Answer.text? (a : Answer) : Option String := a.choices.head?.getD none

end ChatCompletions

namespace Messages

/-- How long an answer may be when the question does not say. -/
def standardMaxTokens : Nat := 4096

def body (model : String) (q : Query) : Value :=
  .object <|
    [ ("model", .string model),
      ("max_tokens", countValue (q.options.maxTokens.getD standardMaxTokens)) ] ++
    optionalMember "system" ((systemText? q.messages).map .string) ++
    [("messages", .list ((spoken q.messages).map messageValue))] ++
    optionalMember "temperature" (q.options.temperature.map singleValue)

/-- The kind of a block, and its text if it is a text block. -/
abbrev Block := Option String

/-- The only value of a name, if it stands once. -/
def only? (members : List (String × Value)) (name : String) : Option Value :=
  match members.filter (·.1 = name) with
  | [(_, v)] => some v
  | _ => none

/-- A block of an answer: an object that says its type once, and its text once if it is a text
block, or the same as a list with nothing more in it. -/
def blockOf? : Value → Option Block
  | .object members =>
    match only? members "type" with
    | some (.string kind) =>
      if kind = "text" then
        match only? members "text" with
        | some (.string text) => some (some text)
        | _ => none
      else some none
    | _ => none
  | .list [.string kind] => if kind = "text" then none else some none
  | .list [.string kind, .string text] => if kind = "text" then some (some text) else none
  | _ => none

/-- A block, read from a document of any shape. -/
def readBlock : Reader Block := fun depth s =>
  match readValue depth s with
  | .error e => .error e
  | .ok (v, r) =>
    match blockOf? v with
    | some b => .ok (b, r)
    | none => .error (.here (.wrongType .map "a content block") r)

/-- An answer: its blocks and its counts. -/
structure Answer where
  blocks : List Block
  counts : Option Counts
  deriving DecidableEq, Repr

/-- An answer, read from a document. -/
def readAnswer : Reader Answer :=
  readRecord "MessagesResponse"
    [ .of "content" true (readList readBlock) fun v a => { a with blocks := v },
      .of "usage" false (readOptional (readCounts "WireUsage" "input_tokens" "output_tokens"))
        fun v a => { a with counts := v } ]
    ⟨[], none⟩

/-- The text of an answer: its text blocks one behind the other, if there is any. -/
def Answer.text? (a : Answer) : Option String :=
  match a.blocks.filterMap id with
  | [] => none
  | texts => some (String.join texts)

end Messages

end PromptRunner.Provider
