import PromptRunner.Text.Blank

/-!
# Sums of a script

A sum is made of numbers, names of variables, signs and brackets. The signs bind as usual: first
multiplication, then addition, then comparison, then conjunction and disjunction. A comparison
answers one or zero. There is no answer where a sum is malformed or divides by zero.
-/

namespace PromptRunner.Child.Script

open PromptRunner.Text

/-- A piece of a sum. -/
inductive Term where
  | value (n : Int)
  | sign (s : String)
  deriving DecidableEq, Repr

/-- The signs of a sum; the longer ones come first. -/
def sumSigns : List String :=
  ["&&", "||", "==", "!=", "<=", ">=", "<", ">", "+", "-", "*", "/", "%", "(", ")", "!"]

/-- The pieces of a sum, with variables looked up. -/
def terms (variable_ : String → Int) : Nat → List Char → Option (List Term)
  | 0, _ => none
  | _, [] => some []
  | fuel + 1, c :: rest =>
    if isBlank c then terms variable_ fuel rest
    else if c.isDigit then
      let digits := (c :: rest).takeWhile Char.isDigit
      ((String.ofList digits).toInt?).bind fun n =>
        (terms variable_ fuel ((c :: rest).dropWhile Char.isDigit)).map (.value n :: ·)
    else if c.isAlpha || c = '_' || c = '$' then
      let s := if c = '$' then rest else c :: rest
      let name := s.takeWhile fun c => c.isAlphanum || c = '_'
      if name.isEmpty then none
      else
        (terms variable_ fuel (s.drop name.length)).map
          (.value (variable_ (String.ofList name)) :: ·)
    else
      match sumSigns.find? fun s => startsWith (c :: rest) s.toList with
      | some s => (terms variable_ fuel ((c :: rest).drop s.length)).map (.sign s :: ·)
      | none => none

def ofBool (b : Bool) : Int := if b then 1 else 0

def combine (s : String) (a b : Int) : Option Int :=
  match s with
  | "*" => some (a * b)
  | "/" => if b = 0 then none else some (a.tdiv b)
  | "%" => if b = 0 then none else some (a.tmod b)
  | "+" => some (a + b)
  | "-" => some (a - b)
  | "<" => some (ofBool (a < b))
  | "<=" => some (ofBool (a ≤ b))
  | ">" => some (ofBool (b < a))
  | ">=" => some (ofBool (b ≤ a))
  | "==" => some (ofBool (a = b))
  | "!=" => some (ofBool (a ≠ b))
  | "&&" => some (ofBool (a ≠ 0 && b ≠ 0))
  | "||" => some (ofBool (a ≠ 0 || b ≠ 0))
  | _ => none

/-- How tightly a sign between two values binds; the loosest binds at one. -/
def binding? (s : String) : Option Nat :=
  match s with
  | "||" => some 1
  | "&&" => some 2
  | "==" => some 3
  | "!=" => some 3
  | "<" => some 4
  | "<=" => some 4
  | ">" => some 4
  | ">=" => some 4
  | "+" => some 5
  | "-" => some 5
  | "*" => some 6
  | "/" => some 6
  | "%" => some 6
  | _ => none

mutual

def operand? : Nat → List Term → Option (Int × List Term)
  | 0, _ => none
  | fuel + 1, ts =>
    match ts with
    | .value n :: rest => some (n, rest)
    | .sign "-" :: rest => (operand? fuel rest).map fun (n, rest) => (-n, rest)
    | .sign "+" :: rest => operand? fuel rest
    | .sign "!" :: rest => (operand? fuel rest).map fun (n, rest) => (ofBool (n = 0), rest)
    | .sign "(" :: rest =>
      match sumFrom? fuel 1 rest with
      | some (n, .sign ")" :: rest) => some (n, rest)
      | _ => none
    | _ => none

def sumFrom? : Nat → Nat → List Term → Option (Int × List Term)
  | 0, _, _ => none
  | fuel + 1, least, ts =>
    match operand? fuel ts with
    | some (n, rest) => sumOn? fuel least n rest
    | none => none

def sumOn? : Nat → Nat → Int → List Term → Option (Int × List Term)
  | 0, _, _, _ => none
  | fuel + 1, least, a, ts =>
    match ts with
    | .sign s :: rest =>
      match binding? s with
      | some level =>
        if level < least then some (a, ts)
        else
          match sumFrom? fuel (level + 1) rest with
          | some (b, rest) => (combine s a b).bind fun n => sumOn? fuel least n rest
          | none => none
      | none => some (a, ts)
    | [] => some (a, [])
    | _ => none

end

/-- What a sum comes to; nothing comes to zero. -/
def sum? (variable_ : String → Int) (s : List Char) : Option Int :=
  match terms variable_ (s.length + 1) s with
  | none => none
  | some [] => some 0
  | some ts =>
    match sumFrom? (4 * ts.length + 4) 1 ts with
    | some (n, []) => some n
    | _ => none

end PromptRunner.Child.Script
