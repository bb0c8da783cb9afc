import PromptRunner.Number.Binary

/-!
# The fewest digits that stand for a number

A binary number is written with as few decimal digits as tell it apart from its neighbours, and
among the numerals of that length with the one nearest to it. The numerals that read back as the
number fill an interval around it, half a place wide on each side (a quarter below a power of two),
whose ends belong to it when the mantissa is even.

`shortest` looks at the grids of one digit, two digits and so on. On each it tests the two points
around the number, in exact arithmetic; the first grid with a hit wins, of two hits the nearer, and
of two equally near the even one. A numeral with every digit of the number closes the search, so
that what is answered always lies in the interval.

`Layout` holds what is left to decide: between which powers of ten a number is written with its
point in place, rather than with an exponent.
-/

namespace PromptRunner.Number

/-- The number digits · 10 ^ exponent. -/
structure Decimal where
  digits : Nat
  exponent : Int
  deriving DecidableEq, Repr

def digitCount (n : Nat) : Nat := (Nat.toDigits 10 n).length

/-- The power of ten just above a positive quotient. -/
def decade (num den : Nat) : Int :=
  if den ≤ num then digitCount (num / den)
  else 1 - (digitCount ((den - 1) / num) : Int)

/-- A number and the interval of the reals that round to it, in quarters of its last place. -/
structure Span where
  value : Nat
  low : Nat
  high : Nat
  closed : Bool
  exponent : Int
  deriving Repr

namespace Span

/-- The interval around a positive number of a format. -/
def around (f : Format) (x : Magnitude) : Span where
  value := 4 * x.mantissa
  low := if x.mantissa = Nat.pow 2 (f.width - 1) ∧ f.least < x.exponent then 4 * x.mantissa - 1
    else 4 * x.mantissa - 2
  high := 4 * x.mantissa + 2
  closed := x.mantissa % 2 = 0
  exponent := x.exponent - 2

/-- What the numbers of the span, and the points of a decimal grid, are multiplied by to make
them whole numbers of one unit. -/
def units (s : Span) (grid : Int) : Nat × Nat :=
  (Nat.pow 2 s.exponent.toNat * Nat.pow 10 (-grid).toNat,
    Nat.pow 10 grid.toNat * Nat.pow 2 (-s.exponent).toNat)

/-- Whether a point of a grid lies in the interval. -/
def holds (s : Span) (grid : Int) (point : Nat) : Bool :=
  let (a, b) := s.units grid
  if s.closed then s.low * a ≤ point * b && point * b ≤ s.high * a
  else s.low * a < point * b && point * b < s.high * a

/-- The point of a grid that lies in the interval and is nearest to the value, if any does. -/
def hit? (s : Span) (grid : Int) : Option Nat :=
  let (a, b) := s.units grid
  let below := s.value * a / b
  let above := below + 1
  match s.holds grid below, s.holds grid above with
  | false, false => none
  | true, false => some below
  | false, true => some above
  | true, true =>
    let twice := 2 * (s.value * a)
    let middle := (below + above) * b
    if twice < middle then some below
    else if middle < twice then some above
    else if below % 2 = 0 then some below
    else some above

theorem holds_of_hit? {s : Span} {grid : Int} {point : Nat} (h : s.hit? grid = some point) :
    s.holds grid point = true := by
  simp only [hit?] at h
  split at h
  · simp at h
  · next hb _ => cases h; exact hb
  · next _ ha => cases h; exact ha
  · next hb ha =>
    split at h
    · cases h; exact hb
    · split at h
      · cases h; exact ha
      · split at h
        · cases h; exact hb
        · cases h; exact ha

/-- The first grid with a hit, going from few digits to many. -/
def search (s : Span) (top : Int) : Nat → Nat → Option Decimal
  | 0, _ => none
  | tries + 1, digits =>
    match s.hit? (top - digits) with
    | some point => some ⟨point, top - digits⟩
    | none => search s top tries (digits + 1)

end Span

/-- Trailing zeros moved into the exponent, at most so many. -/
def Decimal.strip : Nat → Decimal → Decimal
  | 0, d => d
  | n + 1, d => if d.digits % 10 = 0 then strip n ⟨d.digits / 10, d.exponent + 1⟩ else d

def Magnitude.exact (x : Magnitude) : Decimal :=
  if 0 ≤ x.exponent then ⟨x.mantissa * Nat.pow 2 x.exponent.toNat, 0⟩
  else ⟨x.mantissa * Nat.pow 5 (-x.exponent).toNat, x.exponent⟩

/-- The shortest numeral of a positive number of a format. -/
def shortest (f : Format) (x : Magnitude) : Decimal :=
  let (num, den) := x.ratio
  let found := (Span.around f x).search (decade num den) 17 1
  let d := found.getD x.exact
  d.strip (digitCount d.digits - 1)

/-- Between which exponents of its first digit a number keeps its point in place. -/
structure Layout where
  positionalFrom : Int
  exponentialFrom : Int
  deriving DecidableEq, Repr

/-- Numbers of sixty-four bits keep their point from 0.00001 up to, but not including, 10 ^ 16. -/
def layout64 : Layout := ⟨-5, 16⟩

/-- Numbers of thirty-two bits keep their point from 0.000001 up to, but not including, 10 ^ 13. -/
def layout32 : Layout := ⟨-6, 13⟩

/-- A numeral as text: there is always a digit on both sides of a point, and an exponent always
has its sign. -/
def Layout.text (layout : Layout) (d : Decimal) : List Char :=
  let ds := Nat.toDigits 10 d.digits
  let first : Int := d.exponent + ds.length - 1
  if d.digits = 0 then "0.0".toList
  else if layout.positionalFrom ≤ first ∧ first < layout.exponentialFrom then
    if first < 0 then "0.".toList ++ List.replicate (-first - 1).toNat '0' ++ ds
    else
      let whole := (first + 1).toNat
      if ds.length ≤ whole then ds ++ List.replicate (whole - ds.length) '0' ++ ".0".toList
      else ds.take whole ++ '.' :: ds.drop whole
  else
    let mantissa := if ds.length = 1 then ds else ds.take 1 ++ '.' :: ds.drop 1
    let sign := if first < 0 then '-' else '+'
    mantissa ++ 'e' :: sign :: Nat.toDigits 10 first.natAbs

/-- The text of a number, with its sign also on zero; a value past every number has none. -/
def Binary.text? (f : Format) (layout : Layout) : Binary → Option (List Char)
  | .infinite _ => none
  | .finite negative x =>
    let body := if x.mantissa = 0 then "0.0".toList else layout.text (shortest f x)
    some (if negative then '-' :: body else body)

def Binary.text64? (x : Binary) : Option String :=
  (x.text? binary64 layout64).map String.ofList

def Binary.text32? (x : Binary) : Option String :=
  (x.text? binary32 layout32).map String.ofList

end PromptRunner.Number
