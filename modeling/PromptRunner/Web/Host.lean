import PromptRunner.Text.Blank
import PromptRunner.Web.Percent

/-!
# The host of an address

The host of a web address is a name or a number. A name is written in small letters and may not
hold the characters that end it. One whose last part is a number has to be an address of four
bytes, given in up to four parts of base eight, ten or sixteen; between brackets stands one of
eight words. Names outside the old code are refused.
-/

namespace PromptRunner.Web

open PromptRunner.Text

def isForbiddenInHost (c : Char) : Bool :=
  c = '\x00' || "\t\n\r #/:<>?@[\\]^|".toList.contains c

def isForbiddenInName (c : Char) : Bool :=
  isForbiddenInHost c || c.toNat < 0x20 || c = '%' || c.toNat = 0x7F

def numberOf? (base : Nat) (digits : List Char) : Option Nat :=
  digits.foldl
    (fun n? d =>
      match n?, hexValue? d with
      | some n, some v => if v < base then some (n * base + v) else none
      | _, _ => none)
    (some 0)

def addressPart? (part : List Char) : Option Nat :=
  match part with
  | [] => none
  | '0' :: 'x' :: digits => numberOf? 16 digits
  | '0' :: 'X' :: digits => numberOf? 16 digits
  | '0' :: d :: digits => numberOf? 8 (d :: digits)
  | digits => numberOf? 10 digits

/-- The parts of a name, without the empty one behind a final period. -/
def nameParts (name : List Char) : List (List Char) :=
  let parts := cutAt '.' name
  if 1 < parts.length && parts.getLast? = some [] then parts.dropLast else parts

/-- Whether a name has to be an address of four bytes. -/
def endsInNumber (name : List Char) : Bool :=
  match (nameParts name).getLast? with
  | none => false
  | some [] => false
  | some part => part.all (fun c => '0' ≤ c && c ≤ '9') || (addressPart? part).isSome

/-- The number that the parts of an address make: every part but the last is a byte, and the last
fills what is left. -/
def addressOfParts? : Nat → List Nat → Option Nat
  | _, [] => none
  | bytes, [last] => if last < Nat.pow 256 bytes then some last else none
  | bytes, part :: parts =>
    if part < 256 then
      (addressOfParts? (bytes - 1) parts).map (part * Nat.pow 256 (bytes - 1) + ·)
    else none

def fourBytes? (name : List Char) : Option Nat :=
  let parts := nameParts name
  if 4 < parts.length then none
  else (parts.mapM addressPart?).bind (addressOfParts? 4)

def fourBytesText (n : Nat) : List Char :=
  joinWith '.' ([3, 2, 1, 0].map fun i => Nat.toDigits 10 (n / Nat.pow 256 i % 256))

/-- Words of an address of eight, from their digits. -/
def wordsOf? (s : List Char) : Option (List Nat) :=
  if s.isEmpty then some []
  else
    (cutAt ':' s).mapM fun digits =>
      if 0 < digits.length && digits.length ≤ 4 then numberOf? 16 digits else none

/-- Whether two colons stand together, and what stands around the first such pair. -/
def cutAtGap : List Char → Option (List Char × List Char)
  | ':' :: ':' :: rest => some ([], rest)
  | c :: rest => (cutAtGap rest).map fun (before, after) => (c :: before, after)
  | [] => none

/-- A last part in four bytes, as two words. -/
def tailWords (s : List Char) : List Char :=
  match (cutAt ':' s).getLast? with
  | some part =>
    if part.contains '.' then
      match fourBytes? part with
      | some n =>
        s.take (s.length - part.length) ++ hexNumber (n / 65536) ++ ':' :: hexNumber (n % 65536)
      | none => s
    else s
  | none => s

/-- An address of eight words; two colons stand for the zeros that are missing. -/
def eightWords? (s : List Char) : Option (List Nat) :=
  let s := tailWords s
  match cutAtGap s with
  | none =>
    match wordsOf? s with
    | some ws => if ws.length = 8 then some ws else none
    | none => none
  | some (before, after) =>
    match wordsOf? before, wordsOf? after with
    | some a, some b =>
      if a.length + b.length < 8 then
        some (a ++ List.replicate (8 - a.length - b.length) 0 ++ b)
      else none
    | _, _ => none

def leadingZeros (ws : List Nat) : Nat := (ws.takeWhile (· = 0)).length

/-- Where the first of the longest runs of zeros begins, and how long it is. -/
def longestZeros : Nat → List Nat → Nat × Nat
  | _, [] => (0, 0)
  | i, w :: ws =>
    let here := leadingZeros (w :: ws)
    let later := longestZeros (i + 1) ws
    if later.2 ≤ here then (i, here) else later

/-- An address of eight words as it is written, with two colons for the longest run of zeros. -/
def eightWordsText (ws : List Nat) : List Char :=
  let (start, length) := longestZeros 0 ws
  let text (ws : List Nat) : List Char := joinWith ':' (ws.map hexNumber)
  if 2 ≤ length then text (ws.take start) ++ "::".toList ++ text (ws.drop (start + length))
  else text ws

def webHost? (s : List Char) : Option (List Char) :=
  match s with
  | [] => none
  | '[' :: inner =>
    if inner.getLast? = some ']' then
      (eightWords? inner.dropLast).map fun ws => '[' :: eightWordsText ws ++ [']']
    else none
  | s =>
    let name := (decodeLossy (percentDecode s)).map Char.toLower
    if name.isEmpty || name.any (fun c => isForbiddenInName c || 0x7F < c.toNat) then none
    else if endsInNumber name then (fourBytes? name).map fourBytesText
    else some name

/-- The host of any other address as it is written. -/
def plainHost? (s : List Char) : Option (List Char) :=
  match s with
  | [] => none
  | '[' :: _ => webHost? s
  | s => if s.any isForbiddenInHost then none else some (percentEncode controlSet s)

end PromptRunner.Web
