/-!
# Binary floating-point numbers

A finite magnitude is a mantissa times a power of two, and a format says how wide the mantissa is
and how far the exponent goes. Everything is exact arithmetic on natural numbers: rounding takes a
quotient of naturals to the nearest number of a format, a tie to the even mantissa, and a product
or a quotient of two numbers is that rounding of the exact result.

A magnitude in a format is kept in lowest place: either its mantissa fills the format's width, or
its exponent is the least one. `Format.round` answers only such magnitudes.
-/

namespace PromptRunner.Number

/-- How wide the mantissa is, and the exponents of its last place. -/
structure Format where
  width : Nat
  least : Int
  greatest : Int
  deriving DecidableEq, Repr

/-- Numbers of sixty-four bits. -/
def binary64 : Format := ⟨53, -1074, 971⟩

/-- Numbers of thirty-two bits. -/
def binary32 : Format := ⟨24, -149, 104⟩

/-- The number mantissa · 2 ^ exponent. -/
structure Magnitude where
  mantissa : Nat
  exponent : Int
  deriving DecidableEq, Repr

/-- A magnitude with its sign, or a value past every magnitude. -/
inductive Binary where
  | finite (negative : Bool) (size : Magnitude)
  | infinite (negative : Bool)
  deriving DecidableEq, Repr

namespace Magnitude

def ratio (x : Magnitude) : Nat × Nat :=
  if 0 ≤ x.exponent then (x.mantissa * Nat.pow 2 x.exponent.toNat, 1)
  else (x.mantissa, Nat.pow 2 (-x.exponent).toNat)

def zero (f : Format) : Magnitude := ⟨0, f.least⟩

end Magnitude

def scaled (num den : Nat) (exponent : Int) : Nat × Nat :=
  if 0 ≤ exponent then (num, den * Nat.pow 2 exponent.toNat)
  else (num * Nat.pow 2 (-exponent).toNat, den)

/-- The whole number nearest to a quotient, a tie going to the even one. -/
def nearestEven (num den : Nat) : Nat :=
  let low := num / den
  let rest := num % den
  if 2 * rest < den then low
  else if den < 2 * rest then low + 1
  else if low % 2 = 0 then low
  else low + 1

/-- The nearest whole number is one of the two around the quotient. -/
theorem nearestEven_eq (num den : Nat) :
    nearestEven num den = num / den ∨ nearestEven num den = num / den + 1 := by
  simp only [nearestEven]
  split
  · exact .inl rfl
  · split
    · exact .inr rfl
    · split
      · exact .inl rfl
      · exact .inr rfl

/-- A whole quotient is its own nearest whole number. -/
theorem nearestEven_mul (n : Nat) {den : Nat} (h : 0 < den) : nearestEven (n * den) den = n := by
  simp [nearestEven, h]

namespace Format

/-- The exponent of the last place of the number nearest to a positive quotient: the one that
lets the mantissa fill the width, or the least one. -/
def place (f : Format) (num den : Nat) : Int :=
  let guess : Int := (Nat.log2 num : Int) - Nat.log2 den - (f.width - 1 : Nat)
  let (n, d) := scaled num den guess
  max f.least (if d * Nat.pow 2 (f.width - 1) ≤ n then guess else guess - 1)

/-- The number nearest to a quotient, if it is within the format. -/
def round (f : Format) (num den : Nat) : Option Magnitude :=
  if num = 0 then some (.zero f)
  else
    let exponent := f.place num den
    let (n, d) := scaled num den exponent
    let mantissa := nearestEven n d
    let x : Magnitude :=
      if mantissa = Nat.pow 2 f.width then ⟨Nat.pow 2 (f.width - 1), exponent + 1⟩
      else ⟨mantissa, exponent⟩
    if x.exponent ≤ f.greatest then some x else none

def add (f : Format) (x y : Magnitude) : Option Magnitude :=
  f.round (x.ratio.1 * y.ratio.2 + y.ratio.1 * x.ratio.2) (x.ratio.2 * y.ratio.2)

def mul (f : Format) (x y : Magnitude) : Option Magnitude :=
  f.round (x.ratio.1 * y.ratio.1) (x.ratio.2 * y.ratio.2)

def div (f : Format) (x y : Magnitude) : Option Magnitude :=
  f.round (x.ratio.1 * y.ratio.2) (x.ratio.2 * y.ratio.1)

/-- A value brought into a format: too large a magnitude becomes infinite. -/
def convert (f : Format) : Binary → Binary
  | .infinite negative => .infinite negative
  | .finite negative x =>
    match f.round x.ratio.1 x.ratio.2 with
    | some y => .finite negative y
    | none => .infinite negative

def ofDecimal (f : Format) (negative : Bool) (digits : Nat) (exponent : Int) : Binary :=
  let (num, den) : Nat × Nat :=
    if 0 ≤ exponent then (digits * Nat.pow 10 exponent.toNat, 1)
    else (digits, Nat.pow 10 (-exponent).toNat)
  match f.round num den with
  | some x => .finite negative x
  | none => .infinite negative

end Format

example : binary64.round 1 10 = some ⟨7205759403792794, -56⟩ := by decide +kernel

example : binary64.round 1 (10 ^ 400) = some ⟨0, -1074⟩ := by decide +kernel

example : binary64.round (10 ^ 309) 1 = none := by decide +kernel

end PromptRunner.Number
