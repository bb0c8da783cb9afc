import PromptRunner.Text.Hex
import PromptRunner.Text.Utf8

/-!
# Escapes and formats

A backslash writes controls and bytes by number, in the texts that are echoed and in the formats
that values are put into. A format is used again as long as values are left.
-/

namespace PromptRunner.Child

open PromptRunner.Text

/-- Up to so many digits in base eight, and what follows them. -/
def octalDigits : Nat → Nat → List Char → Nat × List Char
  | 0, n, s => (n, s)
  | _, n, [] => (n, [])
  | digits + 1, n, c :: rest =>
    if '0' ≤ c && c ≤ '7' then octalDigits digits (8 * n + (c.toNat - 0x30)) rest
    else (n, c :: rest)

def controlOf? (c : Char) : Option UInt8 :=
  match c with
  | 'a' => some 7
  | 'b' => some 8
  | 'f' => some 12
  | 'n' => some 10
  | 'r' => some 13
  | 't' => some 9
  | 'v' => some 11
  | '\\' => some 92
  | _ => none

/-- An escape behind its backslash: its bytes, and what follows it. In an echoed text a number
begins with a zero that does not count. -/
def readEscape (echoed : Bool) (s : List Char) : Bytes × List Char :=
  match s with
  | [] => ([92], [])
  | c :: rest =>
    match controlOf? c with
    | some b => ([b], rest)
    | none =>
      if '0' ≤ c && c ≤ '7' && (!echoed || c = '0') then
        let (n, rest) := octalDigits 3 0 (if echoed then rest else s)
        ([UInt8.ofNat n], rest)
      else (92 :: encodeChar c, rest)

/-- A text with its escapes written out; the answer says whether an escape ended it. -/
def unescape (echoed : Bool) : Nat → List Char → Bytes × Bool
  | 0, _ => ([], false)
  | _, [] => ([], false)
  | fuel + 1, c :: rest =>
    if c = '\\' then
      match rest with
      | 'c' :: _ => ([], true)
      | _ =>
        let (bytes, rest) := readEscape echoed rest
        let (more, ended) := unescape echoed fuel rest
        (bytes ++ more, ended)
    else
      let (more, ended) := unescape echoed fuel rest
      (encodeChar c ++ more, ended)

/-- Text filled up to a width with blanks or zeros. -/
def padded (left zero : Bool) (width : Nat) (s : Bytes) : Bytes :=
  let fill := List.replicate (width - s.length) (if zero && !left then 48 else 32 : UInt8)
  if left then s ++ fill else fill ++ s

/-- A number as values write it: in base eight behind a zero, in base sixteen behind a zero and an
x, or as the character behind a quote. -/
def numberOf (value : String) : Int :=
  let plain (s : List Char) : Nat :=
    match s with
    | '0' :: 'x' :: digits => digits.foldl (fun n c => 16 * n + (hexValue? c).getD 0) 0
    | '0' :: digits => (octalDigits digits.length 0 digits).1
    | digits => (digits.takeWhile Char.isDigit).foldl (fun n c => 10 * n + (c.toNat - 0x30)) 0
  match value.toList with
  | '-' :: rest => -(plain rest : Int)
  | '+' :: rest => plain rest
  | '"' :: c :: _ => c.toNat
  | '\'' :: c :: _ => c.toNat
  | s => plain s

/-- A value put into a format: flags, width, and the letter that says how. -/
def formatValue (flags : List Char) (width : Nat) (precision : Option Nat) (letter : Char)
    (value : String) : Bytes :=
  let number := numberOf value
  let signed : Bytes :=
    (if number < 0 then [] else if flags.contains '+' then [43]
      else if flags.contains ' ' then [32] else []) ++ bytesOf (toString number)
  let body : Bytes :=
    match letter with
    | 'd' => signed
    | 'i' => signed
    | 'u' => bytesOf (toString number.toNat)
    | 'x' => encode (hexNumber number.toNat)
    | 'X' => encode ((hexNumber number.toNat).map Char.toUpper)
    | 'o' => encode (Nat.toDigits 8 number.toNat)
    | 'c' => encode (value.toList.take 1)
    | 'b' => (unescape true (value.length + 1) value.toList).1
    | _ =>
      match precision with
      | some n => (bytesOf value).take n
      | none => bytesOf value
  padded (flags.contains '-') (flags.contains '0') width body

/-- A format with values put into it: what is written, the values left, and whether any value was
asked for. -/
def formatOnce : Nat → List Char → List String → Bytes × List String × Bool
  | 0, _, values => ([], values, false)
  | _, [], values => ([], values, false)
  | fuel + 1, c :: rest, values =>
    let go (bytes : Bytes) (asked : Bool) (rest : List Char) (values : List String) :
        Bytes × List String × Bool :=
      let (more, values, later) := formatOnce fuel rest values
      (bytes ++ more, values, asked || later)
    if c = '\\' then
      let (bytes, rest) := readEscape false rest
      go bytes false rest values
    else if c = '%' then
      match rest with
      | '%' :: rest => go [37] false rest values
      | _ =>
        let flags := rest.takeWhile fun c => "-+ 0#".toList.contains c
        let rest := rest.drop flags.length
        let width := rest.takeWhile Char.isDigit
        let rest := rest.drop width.length
        let (precision, rest) : Option Nat × List Char :=
          match rest with
          | '.' :: rest =>
            let digits := rest.takeWhile Char.isDigit
            (some ((String.ofList digits).toNat?.getD 0), rest.drop digits.length)
          | rest => (none, rest)
        match rest with
        | [] => go [37] false [] values
        | letter :: rest =>
          let value := values.headD ""
          go (formatValue flags ((String.ofList width).toNat?.getD 0) precision letter value) true
            rest (values.drop 1)
    else go (encodeChar c) false rest values

def formatAll : Nat → List Char → List String → Bytes
  | 0, _, _ => []
  | rounds + 1, format, values =>
    let (bytes, left, asked) := formatOnce (format.length + 1) format values
    if left.isEmpty || !asked then bytes else bytes ++ formatAll rounds format left

end PromptRunner.Child
