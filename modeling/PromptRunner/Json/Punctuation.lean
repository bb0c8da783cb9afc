import PromptRunner.Json.Numeral
import PromptRunner.Json.StringToken

/-!
# Between the values of a document

The steps from one value to the next: into a list or an object, past a separator, past a key and
its colon, out at the closing bracket. Each step skips the blanks in front of it, and each says in
its own words what is missing where it finds something else; in particular a separator followed
by a closing bracket is a fault of its own.

`skipValue` uses none of this: a value that nobody asked for is stepped over with a stack of open
brackets, which has no limit on how deep it grows.
-/

namespace PromptRunner.Json

/-- What stands before a list's next element or its closing bracket; the answer says whether an
element follows. -/
def nextElement (first : Bool) (s : List Char) : Reading Bool :=
  match skipSpace s with
  | [] => .error (.here .listOpen [])
  | c :: r =>
    if c = ']' then .ok (false, c :: r)
    else if first then .ok (true, c :: r)
    else if c = ',' then
      match skipSpace r with
      | [] => .error (.here .valueMissing [])
      | d :: r =>
        if d = ']' then .error (.next .trailingComma (d :: r)) else .ok (true, d :: r)
    else .error (.next .listSeparatorMissing (c :: r))

/-- The key that a member begins with, at its opening mark. -/
def readKey (s : List Char) : Reading (Option String) :=
  match s with
  | [] => .error (.here .valueMissing [])
  | c :: r =>
    if c = '"' then
      match readString r with
      | .ok (key, r) => .ok (some (String.ofList key), r)
      | .error e => .error e
    else if c = '\x7d' then .error (.next .trailingComma (c :: r))
    else .error (.next .keyNotString (c :: r))

/-- The key of an object's next member, or none at its closing bracket. -/
def nextMember (first : Bool) (s : List Char) : Reading (Option String) :=
  match skipSpace s with
  | [] => .error (.here .objectOpen [])
  | c :: r =>
    if c = '\x7d' then .ok (none, c :: r)
    else if first then readKey (c :: r)
    else if c = ',' then readKey (skipSpace r)
    else .error (.next .objectSeparatorMissing (c :: r))

def readColon (s : List Char) : Except Fault (List Char) :=
  match skipSpace s with
  | [] => .error (.here .objectOpen [])
  | c :: r => if c = ':' then .ok r else .error (.next .colonMissing (c :: r))

def closeList (s : List Char) : Except Fault (List Char) :=
  match skipSpace s with
  | [] => .error (.here .listOpen [])
  | c :: r =>
    if c = ']' then .ok r
    else if c = ',' then
      match skipSpace r with
      | d :: r =>
        if d = ']' then .error (.next .trailingComma (d :: r))
        else .error (.next .trailingText (d :: r))
      | [] => .error (.here .trailingText [])
    else .error (.next .trailingText (c :: r))

def closeObject (s : List Char) : Except Fault (List Char) :=
  match skipSpace s with
  | [] => .error (.here .objectOpen [])
  | c :: r =>
    if c = '\x7d' then .ok r
    else if c = ',' then .error (.next .trailingComma (c :: r))
    else .error (.next .trailingText (c :: r))

/-- How far a reader gets that looks for a list's closing bracket. -/
def towardsListEnd (s : List Char) : List Char :=
  match skipSpace s with
  | ']' :: r => r
  | ',' :: r => skipSpace r
  | r => r

/-- How far a reader gets that looks for an object's closing bracket. -/
def towardsObjectEnd (s : List Char) : List Char :=
  match skipSpace s with
  | '\x7d' :: r => r
  | r => r

def readWord : List Char → List Char → Except Fault (List Char)
  | [], s => .ok s
  | _ :: _, [] => .error (.here .valueMissing [])
  | w :: ws, c :: s => if c = w then readWord ws s else .error (.next .notALiteral (c :: s))

/-- An open bracket. -/
inductive Bracket where
  | list
  | object
  deriving DecidableEq, Repr

def Bracket.closing : Bracket → Char
  | .list => ']'
  | .object => '\x7d'

/-- What the end of the text means inside a bracket. -/
def Bracket.openProblem : Bracket → Problem
  | .list => .listOpen
  | .object => .objectOpen

/-- What any other character means after a value inside a bracket. -/
def Bracket.separatorProblem : Bracket → Problem
  | .list => .listSeparatorMissing
  | .object => .objectSeparatorMissing

/-- The text behind a key and its colon that nobody asked for. -/
def skipKey (s : List Char) : Except Fault (List Char) :=
  match skipSpace s with
  | [] => .error (.here .objectOpen [])
  | c :: r =>
    if c = '"' then
      match skipString r with
      | .ok r => readColon r
      | .error e => .error e
    else .error (.next .keyNotString (c :: r))

/-- The text behind a value without brackets that nobody asked for. -/
def skipScalar (s : List Char) : Except Fault (List Char) :=
  match s with
  | [] => .error (.here .valueMissing [])
  | c :: r =>
    if c = 'n' then readWord "ull".toList r
    else if c = 't' then readWord "rue".toList r
    else if c = 'f' then readWord "alse".toList r
    else if c = '-' then skipNumber r
    else if isDigit c then skipNumber (c :: r)
    else if c = '"' then skipString r
    else .error (.next .notAValue (c :: r))

/-- Where a skipping reader is: before a value, right behind an opening bracket, or behind a
value. -/
inductive Stage where
  | value
  | opened
  | valueDone
  deriving DecidableEq, Repr

/-- Skipping with the open brackets, the innermost first. -/
def skipSteps : Nat → Stage → List Bracket → List Char → Except Fault (List Char)
  | 0, _, _, s => .error (.here .valueMissing s)
  | fuel + 1, .value, stack, s =>
    match skipSpace s with
    | [] => .error (.here .valueMissing [])
    | c :: r =>
      if c = '[' then skipSteps fuel .opened (.list :: stack) r
      else if c = '\x7b' then skipSteps fuel .opened (.object :: stack) r
      else
        match skipScalar (c :: r) with
        | .ok r => skipSteps fuel .valueDone stack r
        | .error e => .error e
  | _ + 1, _, [], s => .ok s
  | fuel + 1, stage, b :: stack, s =>
    let member (s : List Char) : Except Fault (List Char) :=
      match b with
      | .list => .ok s
      | .object => skipKey s
    match skipSpace s with
    | [] => .error (.here b.openProblem [])
    | c :: r =>
      if c = b.closing then skipSteps fuel .valueDone stack r
      else if stage = .opened then
        match member (c :: r) with
        | .ok s => skipSteps fuel .value (b :: stack) s
        | .error e => .error e
      else if c = ',' then
        match member r with
        | .ok s => skipSteps fuel .value (b :: stack) s
        | .error e => .error e
      else .error (.next b.separatorProblem (c :: r))

/-- The text behind a value that nobody asked for. Two steps for each character are enough: one
consumes it, and one at most passes from an opening bracket to what it holds. -/
def skipValue (s : List Char) : Except Fault (List Char) :=
  skipSteps (2 * s.length + 2) .value [] s

end PromptRunner.Json
