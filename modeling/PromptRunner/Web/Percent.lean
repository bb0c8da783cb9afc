import PromptRunner.Text.Hex
import PromptRunner.Text.Utf8

/-!
# Characters of an address as percent signs and digits

Each part of an address has characters that it cannot hold as they are. They are written byte by
byte as a percent sign with two digits; a percent sign that is already there stays. A form's
value is stricter: only letters, digits and four marks stay, and a space becomes a plus sign.
-/

namespace PromptRunner.Web

open PromptRunner.Text

def percentByte (b : UInt8) : List Char :=
  ['%', hexCapital (b.toNat / 16), hexCapital (b.toNat % 16)]

def percentChar (c : Char) : List Char := (encodeChar c).flatMap percentByte

/-- A text in which the characters of a set are written byte by byte. -/
def percentEncode (set : Char → Bool) (s : List Char) : List Char :=
  s.flatMap fun c => if set c then percentChar c else [c]

/-- Controls, and whatever is no character of the old code. -/
def controlSet (c : Char) : Bool := c.toNat < 0x20 || 0x7E < c.toNat

def fragmentSet (c : Char) : Bool := controlSet c || " \"<>`".toList.contains c

def querySet (c : Char) : Bool := controlSet c || " \"#<>".toList.contains c

def webQuerySet (c : Char) : Bool := querySet c || c = '\''

def pathSet (c : Char) : Bool := fragmentSet c || "#?\x7b\x7d".toList.contains c

def digitsByte? : List Char → Option UInt8
  | h :: l :: _ =>
    match hexValue? h, hexValue? l with
    | some h, some l => some (UInt8.ofNat (16 * h + l))
    | _, _ => none
  | _ => none

/-- The bytes that percent signs and digits stand for; `skip` characters are already read. -/
def percentDecodeFrom : Nat → List Char → Bytes
  | _, [] => []
  | skip + 1, _ :: rest => percentDecodeFrom skip rest
  | 0, c :: rest =>
    match if c = '%' then digitsByte? rest else none with
    | some b => b :: percentDecodeFrom 2 rest
    | none => encodeChar c ++ percentDecodeFrom 0 rest

/-- The bytes that percent signs and digits stand for. -/
def percentDecode (s : List Char) : Bytes := percentDecodeFrom 0 s

def formByte (b : UInt8) : List Char :=
  let c := Char.ofNat b.toNat
  if b < 0x80 && (c.isAlphanum || "*-._".toList.contains c) then [c]
  else if c = ' ' then ['+']
  else percentByte b

def formEncode (s : List Char) : List Char := (encode s).flatMap formByte

end PromptRunner.Web
