import PromptRunner.Text.Utf8
import PromptRunner.Web.Url

/-!
# Asking over the web

A question over the web is an address, a few headers and a body. What comes of it is no connection,
or an answer with a status and a body, unless the body breaks off. Two things can be wrong before
anything is sent: the address, or a header that would hold a control character.

How an address is read is the affair of the client that asks, and so is the choice of addresses that
it sends to. `Client.standard` reads them as `Url.parse?` does.
-/

namespace PromptRunner.Web

open PromptRunner.Text

/-- A question that is sent. -/
structure WebRequest where
  url : Url
  headers : List (String × String)
  body : List Char
  deriving DecidableEq, Repr

/-- What comes of a question; the body is missing when it broke off. -/
inductive WebOutcome where
  | unreachable
  | answered (status : Nat) (body : Option Bytes)
  deriving DecidableEq, Repr

/-- A network, as far as one question goes. -/
abbrev Network := WebRequest → WebOutcome

/-- A client: how it reads an address, and which addresses it can send to. -/
structure Client where
  parse? : String → Option Url
  sends : Url → Bool

def Client.standard : Client := ⟨Url.parse?, Url.isSendable⟩

def isHeaderValue (value : String) : Bool :=
  value.toList.all fun c => c = '\t' || (0x20 ≤ c.toNat && c.toNat ≠ 0x7F)

def isSuccess (status : Nat) : Bool := 200 ≤ status && status < 300

def builderError : String := "builder error"

def schemeError (url : Url) : String := "builder error for url (" ++ String.ofList url.text ++ ")"

def sendError (url : Url) : String :=
  "error sending request for url (" ++ String.ofList url.text ++ ")"

/-- An answer that is not the wanted document, or broke off. -/
def decodeError : String := "error decoding response body"

/-- A question to an address, where `adjust` completes the address, or why it cannot be sent. -/
def prepare (client : Client) (address : String) (adjust : Url → Url)
    (headers : List (String × String)) (body : List Char) : Except String WebRequest :=
  match client.parse? address with
  | none => .error builderError
  | some url =>
    if !url.hasHost then .error (schemeError url)
    else if headers.any fun (_, value) => !isHeaderValue value then .error builderError
    else if !client.sends (adjust url) then .error (schemeError (adjust url))
    else .ok ⟨adjust url, headers, body⟩

end PromptRunner.Web
