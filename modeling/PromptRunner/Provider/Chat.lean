import PromptRunner.Failure
import PromptRunner.Provider.Wire
import PromptRunner.Settings.Basic
import PromptRunner.Web.Exchange

/-!
# Asking a provider

A provider is a vendor with the key and the address that the settings give for it, and with the
model it stands for. Asking it has two halves with the network between them. `prepare` makes the
question for the wire, or says why there is none: no key, or an address or a key that cannot be
sent. `conclude` reads what came of it. Both are what any client does (`prepareBy`, `chatBy`), and
the standard one.

A status that is no success is a failure whose kind hangs on the status alone and whose text is
the message in the answer, or else the whole answer. A success is an answer only if it is a
document of the vendor's format and holds a text.
-/

namespace PromptRunner

open PromptRunner.Json PromptRunner.Web PromptRunner.Text

/-- A vendor that can be asked for a model. -/
structure Provider where
  vendor : Provider.Vendor
  key : Option String
  address : String
  model : String
  deriving DecidableEq, Repr

namespace Provider

/-- A status as a failure: what is refused for lack of a right or for haste is told apart. -/
def refusal (status : Nat) (message : String) : Failure :=
  let text := "HTTP " ++ toString status ++ ": " ++ message
  if status = 401 || status = 403 then .unauthorized text
  else if status = 429 then .rateLimited text
  else .provider text

def missingKey (variable_ : String) : Failure :=
  .settings (variable_ ++ " is not set (export it or add it to a .env file)")

/-- The message in a refused answer: the one at its place in a document, or else all of it. -/
def refusalText (body : String) : String :=
  match Value.parse body with
  | .error _ => body
  | .ok v =>
    match ((v.get "error").get "message").string? with
    | some message => message
    | none => body

/-- An address of the settings in place of a vendor's own, without slashes at its end. -/
def addressOf (vendor : Vendor) (address : Option String) : String :=
  match address.filter (!·.isEmpty) with
  | some a => String.ofList ((a.toList.reverse.dropWhile (· = '/')).reverse)
  | none => vendor.home

/-- A vendor for a model, with the access that is set for it; an empty key is none. -/
def of (vendor : Vendor) (access : Access) (model : String) : Provider where
  vendor := vendor
  key := access.key.filter (!·.isEmpty)
  address := addressOf vendor access.address
  model := model

def ofSettings (s : Settings) (model : String) : Provider :=
  let vendor := Vendor.ofModel model
  of vendor (s.accesses.of vendor) (Vendor.wireModel model)

def shown (p : Provider) : String :=
  let rest := [("api_key", shownKey p.key), ("api_base", quoted p.address),
    ("model", quoted p.model)]
  match p.vendor with
  | .gemini => shownRecord "GeminiProvider" rest
  | .anthropic => shownRecord "AnthropicProvider" rest
  | .openAi | .openRouter =>
    shownRecord "OpenAiProvider" (("name", quoted p.vendor.name) :: rest)

def modelFor (p : Provider) (q : Query) : String := q.model.getD p.model

def addressFor (p : Provider) (q : Query) : String :=
  match p.vendor with
  | .gemini => p.address ++ "/models/" ++ p.modelFor q ++ ":generateContent"
  | .anthropic => p.address ++ "/messages"
  | .openAi | .openRouter => p.address ++ "/chat/completions"

/-- How a key goes along: in the address or in a header. -/
def headersFor (p : Provider) (key : String) : List (String × String) :=
  let json := ("content-type", "application/json")
  match p.vendor with
  | .gemini => [json]
  | .anthropic => [("x-api-key", key), ("anthropic-version", "2023-06-01"), json]
  | .openAi | .openRouter => [("authorization", "Bearer " ++ key), json]

/-- What is asked, as a document. -/
def bodyFor (p : Provider) (q : Query) : Value :=
  match p.vendor with
  | .gemini => Gemini.body q
  | .anthropic => Messages.body (p.modelFor q) q
  | .openAi | .openRouter => ChatCompletions.body (p.modelFor q) q

/-- The address with the key in it, where it belongs there. -/
def withKey (p : Provider) (key : String) (url : Url) : Url :=
  match p.vendor with
  | .gemini => url.addQuery "key" key
  | _ => url

/-- A failure of the exchange, in the vendor's name. -/
def exchangeFailure (p : Provider) (text : String) : Failure :=
  .provider (p.vendor.label ++ " request failed: " ++ text)

/-- The question that a client sends, or why it sends none. -/
def prepareBy (p : Provider) (client : Client) (q : Query) : Except Failure WebRequest :=
  match p.key with
  | none => .error (missingKey p.vendor.keyVariable)
  | some key =>
    match Web.prepare client (p.addressFor q) (p.withKey key) (p.headersFor key)
      (p.bodyFor q).compact with
    | .ok r => .ok r
    | .error text => .error (p.exchangeFailure text)

def prepare (p : Provider) (q : Query) : Except Failure WebRequest := p.prepareBy .standard q

/-- The text of a success. Bytes that are no characters matter only where something
is made of them, so they do not matter in a string that nobody asked for. -/
def bodyText (body : Bytes) : List Char := decodeWith unkept body

/-- What a success holds: a text, if any, and counts, if any; or nothing that can be read. -/
def readSuccess (p : Provider) (body : Bytes) : Option (Option String × Option Usage) :=
  match p.vendor with
  | .gemini =>
    match readWhole readValue (bodyText body) with
    | .ok v => some (Gemini.answerText? v, Gemini.usage? v)
    | .error _ => none
  | .anthropic =>
    match readWhole Messages.readAnswer (bodyText body) with
    | .ok a => some (a.text?, a.counts.map (·.usage))
    | .error _ => none
  | .openAi | .openRouter =>
    match readWhole ChatCompletions.readAnswer (bodyText body) with
    | .ok a => some (a.text?, a.counts.map (·.usage))
    | .error _ => none

def emptyAnswer (p : Provider) : Failure :=
  match p.vendor with
  | .gemini => .provider "Gemini response contained no text"
  | .anthropic => .provider "No text content in Anthropic response"
  | .openAi | .openRouter => .provider ("No content in " ++ p.vendor.name ++ " response")

def conclude (p : Provider) (r : WebRequest) : WebOutcome → Except Failure Completion
  | .unreachable => .error (p.exchangeFailure (sendError r.url))
  | .answered status body =>
    if isSuccess status then
      match body.bind p.readSuccess with
      | none =>
        .error (.provider ("Failed to parse " ++ p.vendor.label ++ " response: " ++ decodeError))
      | some (none, _) => .error p.emptyAnswer
      | some (some text, usage) => .ok ⟨text, usage⟩
    else
      let text := String.ofList (decodeLossy (body.getD []))
      .error (refusal status (p.vendor.label ++ " API error: " ++ refusalText text))

/-- What comes of asking through a client. -/
def chatBy (p : Provider) (client : Client) (network : Network) (q : Query) :
    Except Failure Completion :=
  match p.prepareBy client q with
  | .error e => .error e
  | .ok r => p.conclude r (network r)

def chat (p : Provider) (network : Network) (q : Query) : Except Failure Completion :=
  p.chatBy .standard network q

theorem chat_eq (p : Provider) (network : Network) (q : Query) :
    p.chat network q =
      match p.prepare q with
      | .error e => .error e
      | .ok r => p.conclude r (network r) := rfl

end Provider

end PromptRunner
