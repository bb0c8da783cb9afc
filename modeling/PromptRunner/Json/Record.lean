import PromptRunner.Json.Value

/-!
# Documents of a known shape

Where the shape of a document is known, it is read straight into a type, and what does not fit is
a fault with a place. A record has named fields. It may be written as an object, in any order and
with fields that nobody asked for between them, or as a list with its fields in order. A field
that is required must be there; any other keeps the value it starts with.

A fault of a whole record (a field missing, written twice, or a list too short) has no place of
its own. It is placed where the reader gets to in looking for the record's closing bracket, and
`Trouble` keeps the two kinds of fault apart until then.
-/

namespace PromptRunner.Json

open PromptRunner.Number

/-- Reads a value, with so many more brackets allowed. -/
abbrev Reader (α : Type) := Nat → List Char → Reading α

/-- What is wrong where a value of another type was wanted, at a value that begins here. A list or
an object is not entered, anything else is read to its end. -/
def wrongType (wanted : String) (s : List Char) : Fault :=
  let found (got : Got) (rest : List Char) : Fault := .here (.wrongType got wanted) rest
  let after (got : Got) : Except Fault (List Char) → Fault
    | .ok rest => found got rest
    | .error e => e
  match s with
  | [] => .here .notAValue []
  | c :: r =>
    if c = 'n' then after .null (readWord "ull".toList r)
    else if c = 't' then after (.boolean true) (readWord "rue".toList r)
    else if c = 'f' then after (.boolean false) (readWord "alse".toList r)
    else if c = '-' || isDigit c then
      match if c = '-' then readNumber true r else readNumber false s with
      | .ok (n, rest) => found n.got rest
      | .error e => e
    else if c = '"' then
      match readString r with
      | .ok (text, rest) => found (.string (String.ofList text)) rest
      | .error e => e
    else if c = '[' then found .sequence s
    else if c = '\x7b' then found .map s
    else .next .notAValue s

def readText (wanted : String) : Reader String := fun _ s =>
  match skipSpace s with
  | [] => .error (.here .valueMissing [])
  | c :: r =>
    if c = '"' then (readString r).map fun (text, r) => (String.ofList text, r)
    else .error (wrongType wanted (c :: r))

/-- A number, before it is asked what kind it is. -/
def readAnyNumber (wanted : String) (s : List Char) : Reading Number :=
  match skipSpace s with
  | [] => .error (.here .valueMissing [])
  | c :: r =>
    if c = '-' then readNumber true r
    else if isDigit c then readNumber false (c :: r)
    else .error (wrongType wanted (c :: r))

def readNatural (bound : Nat) (wanted : String) : Reader Nat := fun _ s =>
  match readAnyNumber wanted s with
  | .error e => .error e
  | .ok (.natural n, r) =>
    if n < bound then .ok (n, r) else .error (.here (.wrongValue (.integer n) wanted) r)
  | .ok (.negative n, r) => .error (.here (.wrongValue (.integer (-n)) wanted) r)
  | .ok (n, r) => .error (.here (.wrongType n.got wanted) r)

/-- A floating-point number; a whole number is taken to the nearest. -/
def readReal (wanted : String) : Reader Binary := fun _ s =>
  (readAnyNumber wanted s).map fun (n, r) => (n.toBinary, r)

/-- A value, or none for null. -/
def readOptional (read : Reader α) : Reader (Option α) := fun depth s =>
  match skipSpace s with
  | 'n' :: r => (readWord "ull".toList r).map (none, ·)
  | s => (read depth s).map fun (v, r) => (some v, r)

/-- The elements of a list up to and with its closing bracket. -/
def readElements (read : Reader α) (depth : Nat) : Nat → Bool → List Char → Reading (List α)
  | 0, _, s => .error (.here .valueMissing s)
  | fuel + 1, first, s =>
    match nextElement first s with
    | .error e => .error e
    | .ok (false, r) => (closeList r).map ([], ·)
    | .ok (true, r) =>
      match read depth r with
      | .error e => .error e
      | .ok (v, r) => (readElements read depth fuel false r).map fun (vs, r) => (v :: vs, r)

def readList (read : Reader α) : Reader (List α) := fun depth s =>
  match skipSpace s with
  | [] => .error (.here .valueMissing [])
  | c :: r =>
    if c = '[' then
      match depth with
      | 0 => .error (.next .tooDeep (c :: r))
      | depth + 1 => readElements read depth (r.length + 1) true r
    else .error (wrongType "a sequence" (c :: r))

/-- A field of a record: its name, whether it has to be there, and how its value changes the
record. -/
structure RecordField (σ : Type) where
  name : String
  required : Bool
  read : Reader (σ → σ)

def RecordField.of (name : String) (required : Bool) (read : Reader α) (set : α → σ → σ) :
    RecordField σ where
  name := name
  required := required
  read := fun depth s => (read depth s).map fun (v, r) => (set v, r)

/-- A fault with its place, or one that only the end of the record gives a place. -/
inductive Trouble where
  | placed (fault : Fault)
  | loose (problem : Problem) (rest : List Char)

/-- The first field that has to be there and was not seen. -/
def missing? (fields : List (RecordField σ)) (seen : List String) : Option String :=
  (fields.find? fun f => f.required && !seen.contains f.name).map (·.name)

/-- The members of a record, in any order, up to its closing bracket. -/
def readNamed (fields : List (RecordField σ)) (depth : Nat) :
    Nat → Bool → List String → σ → List Char → Except Trouble (σ × List Char)
  | 0, _, _, _, s => .error (.placed (.here .valueMissing s))
  | fuel + 1, first, seen, v, s =>
    match nextMember first s with
    | .error e => .error (.placed e)
    | .ok (none, r) =>
      match missing? fields seen with
      | some name => .error (.loose (.missingField name) r)
      | none => .ok (v, r)
    | .ok (some key, r) =>
      match fields.find? (·.name = key) with
      | none =>
        match readColon r with
        | .error e => .error (.placed e)
        | .ok r =>
          match skipValue r with
          | .error e => .error (.placed e)
          | .ok r => readNamed fields depth fuel false seen v r
      | some field =>
        if seen.contains key then .error (.loose (.duplicateField key) r)
        else
          match readColon r with
          | .error e => .error (.placed e)
          | .ok r =>
            match field.read depth r with
            | .error e => .error (.placed e)
            | .ok (set, r) => readNamed fields depth fuel false (key :: seen) (set v) r

/-- The fields of a record in order, up to its closing bracket; `index` of them are done. -/
def readInOrder (wanted : String) (depth : Nat) :
    List (RecordField σ) → Nat → σ → List Char → Except Trouble (σ × List Char)
  | [], _, v, s => .ok (v, s)
  | field :: fields, index, v, s =>
    match nextElement (index == 0) s with
    | .error e => .error (.placed e)
    | .ok (false, r) =>
      if field.required then .error (.loose (.wrongLength index wanted) r)
      else readInOrder wanted depth fields (index + 1) v r
    | .ok (true, r) =>
      match field.read depth r with
      | .error e => .error (.placed e)
      | .ok (set, r) => readInOrder wanted depth fields (index + 1) (set v) r

/-- The record's closing bracket, which gives a fault without a place the place where the reader
is then. -/
def closing (close : List Char → Except Fault (List Char)) (towards : List Char → List Char) :
    Except Trouble (σ × List Char) → Reading σ
  | .ok (v, s) => (close s).map (v, ·)
  | .error (.placed e) => .error e
  | .error (.loose p s) => .error (.here p (towards s))

/-- How many fields a list for a record has to have. -/
def lengthWanted (title : String) (fields : List (RecordField σ)) : String :=
  "struct " ++ title ++ " with " ++ toString fields.length ++
    if fields.length = 1 then " element" else " elements"

/-- A record with a title for its faults, its fields, and the values that they start with. -/
def readRecord (title : String) (fields : List (RecordField σ)) (start : σ) : Reader σ :=
  fun depth s =>
    match skipSpace s with
    | [] => .error (.here .valueMissing [])
    | c :: r =>
      if c = '[' then
        match depth with
        | 0 => .error (.next .tooDeep (c :: r))
        | depth + 1 =>
          closing closeList towardsListEnd
            (readInOrder (lengthWanted title fields) depth fields 0 start r)
      else if c = '\x7b' then
        match depth with
        | 0 => .error (.next .tooDeep (c :: r))
        | depth + 1 =>
          closing closeObject towardsObjectEnd
            (readNamed fields depth (r.length + 1) true [] start r)
      else .error (wrongType ("struct " ++ title) (c :: r))

end PromptRunner.Json
