import PromptRunner.Json.Fault

/-!
# Numbers of a document

A numeral is an optional minus sign, whole digits without a leading zero, and optionally a point
with digits and an exponent. Without point and exponent it is a whole number while it fits
sixty-four bits, and everything else is a floating-point number.

The value of the latter is computed from three parts. The digits form a whole number while it fits
sixty-four bits; whole digits past that count as zeros and digits behind the point past that are
dropped. The exponent says by which power of ten to multiply or divide. And `fromParts` does so in
floating-point arithmetic: the whole number and the power are both rounded before their product or
quotient is. A magnitude past every number is refused.

Numbers that nobody asked for are skipped by the same scan; only what they say at the end of the
text differs.
-/

namespace PromptRunner.Json

open PromptRunner.Text PromptRunner.Number

/-- A number of a document: natural, below zero (given without its sign), or floating-point of
sixty-four or of thirty-two bits. Reading answers no number of the last kind. -/
inductive Number where
  | natural (n : Nat)
  | negative (n : Nat)
  | real (x : Binary)
  | single (x : Binary)
  deriving DecidableEq, Repr

def isDigit (c : Char) : Bool := '0' ≤ c && c ≤ '9'

def digitValue (c : Char) : Nat := c.toNat - 0x30

/-- A numeral without its sign: digits before and behind the point, and the exponent with its
sign. -/
structure Numeral where
  whole : List Char
  fraction : List Char
  exponent : Option (Bool × List Char)
  deriving DecidableEq, Repr

/-- The leading digits, and what follows them. -/
def spanDigits (s : List Char) : List Char × List Char :=
  (s.takeWhile isDigit, s.dropWhile isDigit)

/-- The exponent of a numeral, if one begins here; `short` is what the end of the text means. -/
def scanExponent (short : Problem) (s : List Char) : Reading (Option (Bool × List Char)) :=
  match s with
  | c :: r =>
    if c = 'e' || c = 'E' then
      let (negative, r) : Bool × List Char :=
        match r with
        | '+' :: r => (false, r)
        | '-' :: r => (true, r)
        | r => (false, r)
      match spanDigits r with
      | ([], []) => .error (.here short [])
      | ([], r) => .error (.next .badNumber r)
      | (ds, r) => .ok (some (negative, ds), r)
    else .ok (none, s)
  | [] => .ok (none, s)

/-- The digits behind the point of a numeral, if a point stands here. -/
def scanFraction (short : Problem) (s : List Char) : Reading (List Char) :=
  match s with
  | '.' :: r =>
    match spanDigits r with
    | ([], []) => .error (.here short [])
    | ([], r) => .error (.next .badNumber r)
    | (ds, r) => .ok (ds, r)
  | s => .ok ([], s)

def scanWhole (short : Problem) (s : List Char) : Reading (List Char) :=
  match s with
  | [] => .error (.here short [])
  | c :: r =>
    if c = '0' then
      match r with
      | d :: _ => if isDigit d then .error (.next .badNumber r) else .ok (['0'], r)
      | [] => .ok (['0'], r)
    else if isDigit c then .ok (spanDigits s)
    else .error (.next .badNumber s)

/-- A numeral, from behind its sign. -/
def scanNumeral (short : Problem) (s : List Char) : Reading Numeral :=
  match scanWhole short s with
  | .error e => .error e
  | .ok (whole, s) =>
    match scanFraction short s with
    | .error e => .error e
    | .ok (fraction, s) =>
      match scanExponent short s with
      | .error e => .error e
      | .ok (exponent, s) => .ok (⟨whole, fraction, exponent⟩, s)

/-- The text behind a number that nobody asked for. -/
def skipNumber (s : List Char) : Except Fault (List Char) :=
  (scanNumeral .badNumber s).map (·.2)

/-- The greatest whole number of sixty-four bits. -/
def natural64Max : Nat := Nat.pow 2 64 - 1

/-- The greatest exponent that is counted. -/
def exponentMax : Nat := Nat.pow 2 31 - 1

/-- Digits added to a whole number while it stays within a bound, and the digits left over. -/
def accumulate (bound : Nat) : Nat → List Char → Nat × List Char
  | n, [] => (n, [])
  | n, d :: ds =>
    let next := 10 * n + digitValue d
    if next ≤ bound then accumulate bound next ds else (n, d :: ds)

/-- Ten to a power, as a floating-point number. -/
def powerOfTen (n : Nat) : Option Magnitude := binary64.round (Nat.pow 10 n) 1

/-- A number times a power of ten. An exponent below the least power is applied in steps, of which
two leave nothing of any number of sixty-four bits. -/
def scaleByTen : Nat → Magnitude → Int → Option Magnitude
  | 0, x, _ => some x
  | steps + 1, x, exponent =>
    if exponent.natAbs ≤ 308 then
      (powerOfTen exponent.natAbs).bind fun p =>
        if 0 ≤ exponent then binary64.mul x p else binary64.div x p
    else if x.mantissa = 0 then some x
    else if 0 ≤ exponent then none
    else (powerOfTen 308).bind fun p =>
      (binary64.div x p).bind fun y => scaleByTen steps y (exponent + 308)

/-- A floating-point number from its digits and its exponent. -/
def fromParts (digits : Nat) (exponent : Int) : Option Magnitude :=
  (binary64.round digits 1).bind fun x => scaleByTen 4 x exponent

/-- The digits of a numeral as a whole number, and the power of ten that its last digit counts. -/
def Numeral.significand (n : Numeral) : Nat × Int :=
  let (whole, unread) := accumulate natural64Max 0 n.whole
  let (all, dropped) := accumulate natural64Max whole n.fraction
  (all, (unread.length : Int) - (n.fraction.length - dropped.length : Nat))

/-- The value of a numeral, or the digits of its exponent that were not read when it proved too
large. -/
def Numeral.value (negative : Bool) (n : Numeral) : Except (List Char) Number :=
  let (digits, place) := n.significand
  let real (exponent : Int) : Except (List Char) Number :=
    match fromParts digits exponent with
    | some x => .ok (.real (.finite negative x))
    | none => .error []
  match n.fraction, n.exponent with
  | [], none =>
    if place = 0 then
      if !negative then .ok (.natural digits)
      else if digits = 0 || Nat.pow 2 63 < digits then real 0
      else .ok (.negative digits)
    else real place
  | _, none => real place
  | _, some (below, ds) =>
    match accumulate exponentMax 0 ds with
    | (e, []) => real (if below then place - e else place + e)
    | (_, _ :: unread) =>
      if digits = 0 || below then .ok (.real (.finite negative (.zero binary64)))
      else .error unread

/-- A number, from behind its sign. -/
def readNumber (negative : Bool) (s : List Char) : Reading Number :=
  match scanNumeral .valueMissing s with
  | .error e => .error e
  | .ok (n, rest) =>
    match n.value negative with
    | .ok x => .ok (x, rest)
    | .error unread => .error (.here .numberOutOfRange (unread ++ rest))

/-- What a number is called where something else was wanted. -/
def Number.got : Number → Got
  | .natural n => .integer n
  | .negative n => .integer (-n)
  | .real x => .floating x
  | .single x => .floating x

def Number.toBinary : Number → Binary
  | .natural n => binary64.ofDecimal false n 0
  | .negative n => binary64.ofDecimal true n 0
  | .real x => x
  | .single x => binary64.convert x

end PromptRunner.Json
