import PromptRunner.Json.Punctuation

/-!
# Documents as values

A document of any shape is a `Value`. The members of an object keep the order in which they were
written; a name that is written twice means its last member, and a name or a place that is not
there means null, so that looking into a document never fails.

Reading builds values at most 127 brackets deep.
-/

namespace PromptRunner.Json

/-- A document. -/
inductive Value where
  | null
  | boolean (b : Bool)
  | number (n : Number)
  | string (s : String)
  | list (items : List Value)
  | object (members : List (String × Value))
  deriving Repr

namespace Value

def get (v : Value) (name : String) : Value :=
  match v with
  | .object members => ((members.reverse.lookup name)).getD .null
  | _ => .null

/-- The item at a place, from zero. -/
def item (v : Value) (i : Nat) : Value :=
  match v with
  | .list items => items[i]?.getD .null
  | _ => .null

def items? : Value → Option (List Value)
  | .list items => some items
  | _ => none

def string? : Value → Option String
  | .string s => some s
  | _ => none

/-- The value of a natural number of at most sixty-four bits. -/
def natural? : Value → Option Nat
  | .number (.natural n) => some n
  | _ => none

def isTrue : Value → Bool
  | .boolean b => b
  | _ => false

end Value

def depthLimit : Nat := 127

mutual

/-- A value of any shape, with so many more brackets allowed. -/
def readValueSteps : Nat → Nat → List Char → Reading Value
  | 0, _, s => .error (.here .valueMissing s)
  | fuel + 1, depth, s =>
    match skipSpace s with
    | [] => .error (.here .valueMissing [])
    | c :: r =>
      if c = 'n' then (readWord "ull".toList r).map (Value.null, ·)
      else if c = 't' then (readWord "rue".toList r).map (Value.boolean true, ·)
      else if c = 'f' then (readWord "alse".toList r).map (Value.boolean false, ·)
      else if c = '-' then (readNumber true r).map fun (n, r) => (.number n, r)
      else if isDigit c then (readNumber false (c :: r)).map fun (n, r) => (.number n, r)
      else if c = '"' then (readString r).map fun (s, r) => (.string (String.ofList s), r)
      else if c = '[' then
        match depth with
        | 0 => .error (.next .tooDeep (c :: r))
        | depth + 1 => (readItems fuel depth true r).map fun (items, r) => (.list items, r)
      else if c = '\x7b' then
        match depth with
        | 0 => .error (.next .tooDeep (c :: r))
        | depth + 1 => (readMembers fuel depth true r).map fun (members, r) => (.object members, r)
      else .error (.next .notAValue (c :: r))

/-- The items of a list up to and with its closing bracket. -/
def readItems : Nat → Nat → Bool → List Char → Reading (List Value)
  | 0, _, _, s => .error (.here .valueMissing s)
  | fuel + 1, depth, first, s =>
    match nextElement first s with
    | .error e => .error e
    | .ok (false, r) => (closeList r).map ([], ·)
    | .ok (true, r) =>
      match readValueSteps fuel depth r with
      | .error e => .error e
      | .ok (v, r) => (readItems fuel depth false r).map fun (items, r) => (v :: items, r)

/-- The members of an object up to and with its closing bracket. -/
def readMembers : Nat → Nat → Bool → List Char → Reading (List (String × Value))
  | 0, _, _, s => .error (.here .valueMissing s)
  | fuel + 1, depth, first, s =>
    match nextMember first s with
    | .error e => .error e
    | .ok (none, r) => (closeObject r).map ([], ·)
    | .ok (some key, r) =>
      match readColon r with
      | .error e => .error e
      | .ok r =>
        match readValueSteps fuel depth r with
        | .error e => .error e
        | .ok (v, r) =>
          (readMembers fuel depth false r).map fun (members, r) => ((key, v) :: members, r)

end

/-- A value of any shape, with so many more brackets allowed. Each character takes at most two
steps. -/
def readValue (depth : Nat) (s : List Char) : Reading Value :=
  readValueSteps (2 * s.length + 2) depth s

/-- A whole text read, with nothing but blanks behind the value. -/
def readWhole (read : Nat → List Char → Reading α) (text : List Char) : Except Failure α :=
  match read depthLimit text with
  | .error e => .error ⟨e.problem, .of text e⟩
  | .ok (v, rest) =>
    match skipSpace rest with
    | [] => .ok v
    | c :: r =>
      let e := Fault.next .trailingText (c :: r)
      .error ⟨e.problem, .of text e⟩

def Value.parse (text : String) : Except Failure Value := readWhole readValue text.toList

end PromptRunner.Json
