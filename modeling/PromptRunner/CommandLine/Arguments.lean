import PromptRunner.Text.Blank

/-!
# Arguments of the command line

The command line has one argument of its own, the request or the file that holds it, and options.
Some options take a value, which stands behind an equals sign, right behind a letter, or in the next
argument; the others are switches. Behind two dashes nothing is an option any more.

A value that is still waited for, or was given but not looked at yet, is pending. It is looked at
when the next option or argument is taken up, or at the end, and not before; so of two mistakes the
one that comes first in this order is the one that is reported.
-/

namespace PromptRunner.CommandLine

open PromptRunner.Text

/-- What takes a value. -/
inductive Valued where
  | model
  | output
  | limit
  | script
  deriving DecidableEq, Repr

/-- What is switched on. -/
inductive Switch where
  | execute
  | dryRun
  | verbose
  | noCache
  | help
  | version
  deriving DecidableEq, Repr

/-- What takes a value, as messages show it. -/
def Valued.label : Valued → String
  | .model => "--model <MODEL>"
  | .output => "--output <OUTPUT>"
  | .limit => "--cache-ttl <CACHE_TTL>"
  | .script => "<SCRIPT>"

/-- A switch, as messages show it. -/
def Switch.label : Switch → String
  | .execute => "--execute"
  | .dryRun => "--dry-run"
  | .verbose => "--verbose"
  | .noCache => "--no-cache"
  | .help => "--help"
  | .version => "--version"

/-- What a name or letter stands for. -/
inductive Meaning where
  | valued (v : Valued)
  | switch (s : Switch)
  deriving DecidableEq, Repr

def meaningOfName? (name : String) : Option Meaning :=
  match name with
  | "model" => some (.valued .model)
  | "output" => some (.valued .output)
  | "cache-ttl" => some (.valued .limit)
  | "execute" => some (.switch .execute)
  | "dry-run" => some (.switch .dryRun)
  | "verbose" => some (.switch .verbose)
  | "no-cache" => some (.switch .noCache)
  | "help" => some (.switch .help)
  | "version" => some (.switch .version)
  | _ => none

def meaningOfLetter? (letter : Char) : Option Meaning :=
  match letter with
  | 'o' => some (.valued .output)
  | 'x' => some (.switch .execute)
  | 'v' => some (.switch .verbose)
  | 'h' => some (.switch .help)
  | 'V' => some (.switch .version)
  | _ => none

/-- Why a text is no number of the wanted size. -/
inductive NumberFault where
  | empty
  | digit
  | tooLarge
  | tooSmall
  deriving DecidableEq, Repr

def NumberFault.message : NumberFault → String
  | .empty => "cannot parse integer from empty string"
  | .digit => "invalid digit found in string"
  | .tooLarge => "number too large to fit in target type"
  | .tooSmall => "number too small to fit in target type"

/-- Digits read up to the first fault, where the number may not go past a bound. -/
def boundedDigits (bound : Nat) (past : NumberFault) : Nat → List Char → Except NumberFault Nat
  | n, [] => .ok n
  | n, c :: rest =>
    if !c.isDigit then .error .digit
    else
      let n := 10 * n + (c.toNat - 0x30)
      if bound < n then .error past else boundedDigits bound past n rest

def limitBound : Nat := Nat.pow 2 63 - 1

def readLimit (s : String) : Except NumberFault Int :=
  match s.toList with
  | [] => .error .empty
  | '-' :: [] => .error .digit
  | '+' :: [] => .error .digit
  | '-' :: digits => (boundedDigits (limitBound + 1) .tooSmall 0 digits).map fun n => -(Int.ofNat n)
  | '+' :: digits => (boundedDigits limitBound .tooLarge 0 digits).map Int.ofNat
  | digits => (boundedDigits limitBound .tooLarge 0 digits).map Int.ofNat

/-- What is wrong with a command line. -/
inductive UsageError where
  | scriptMissing
  | valueMissing (v : Valued)
  | invalidLimit (text : String) (fault : NumberFault)
  | unexpectedArgument (text : String)
  | unexpectedValue (text : String) (s : Switch)
  | repeated (label : String)
  deriving DecidableEq, Repr

/-- What is wrong, in one line. -/
def UsageError.message : UsageError → String
  | .scriptMissing => "the following required arguments were not provided:"
  | .valueMissing v => "a value is required for '" ++ v.label ++ "' but none was supplied"
  | .invalidLimit text fault =>
    "invalid value '" ++ text ++ "' for '" ++ Valued.limit.label ++ "': " ++ fault.message
  | .unexpectedArgument text => "unexpected argument '" ++ text ++ "' found"
  | .unexpectedValue text s =>
    "unexpected value '" ++ text ++ "' for '" ++ s.label ++ "' found; no more were expected"
  | .repeated label => "the argument '" ++ label ++ "' cannot be used multiple times"

/-- What a run is asked to do. -/
structure Invocation where
  script : String
  model : Option String
  execute : Bool
  output : Option String
  dryRun : Bool
  verbose : Bool
  limit : Int
  noCache : Bool
  deriving DecidableEq, Repr

/-- Why reading ends before the end. -/
inductive Stop where
  | help
  | version
  | refused (e : UsageError)
  deriving DecidableEq, Repr

/-- What was read so far. -/
structure Reading where
  script : Option String
  model : Option String
  output : Option String
  limit : Option Int
  switches : List Switch
  /-- What takes a value and was not looked at yet, with the value if it is there. -/
  pending : Option (Valued × Option String)
  /-- Whether the next argument is the pending value. -/
  waiting : Bool
  /-- Whether nothing is an option any more. -/
  plain : Bool
  deriving DecidableEq, Repr

namespace Reading

def start : Reading := ⟨none, none, none, none, [], none, false, false⟩

def take (r : Reading) (v : Valued) (text : String) : Except Stop Reading :=
  let repeated : Except Stop Reading := .error (.refused (.repeated v.label))
  match v with
  | .script => .ok { r with script := some text }
  | .model => if r.model.isSome then repeated else .ok { r with model := some text }
  | .output =>
    if r.output.isSome then repeated
    else if text.isEmpty then .error (.refused (.valueMissing .output))
    else .ok { r with output := some text }
  | .limit =>
    if r.limit.isSome then repeated
    else
      match readLimit text with
      | .ok n => .ok { r with limit := some n }
      | .error fault => .error (.refused (.invalidLimit text fault))

def settle (r : Reading) : Except Stop Reading :=
  match r.pending with
  | none => .ok { r with waiting := false }
  | some (v, none) => .error (.refused (.valueMissing v))
  | some (v, some text) => { r with pending := none, waiting := false }.take v text

def turn (r : Reading) (s : Switch) : Except Stop Reading :=
  match r.settle with
  | .error e => .error e
  | .ok r =>
    match s with
    | .help => .error .help
    | .version => .error .version
    | s =>
      if r.switches.contains s then .error (.refused (.repeated s.label))
      else .ok { r with switches := s :: r.switches }

/-- Something that takes a value, with its value or waiting for it. -/
def expect (r : Reading) (v : Valued) (attached : Option String) : Except Stop Reading :=
  match r.settle with
  | .error e => .error e
  | .ok r =>
    match attached with
    | some text => r.take v text
    | none => .ok { r with pending := some (v, none), waiting := true }

/-- An option by name, with a value behind an equals sign if there is one. -/
def byName (r : Reading) (name : String) (attached : Option String) : Except Stop Reading :=
  match meaningOfName? name with
  | none => .error (.refused (.unexpectedArgument ("--" ++ name)))
  | some (.valued v) => r.expect v attached
  | some (.switch s) =>
    match attached with
    | some text => .error (.refused (.unexpectedValue text s))
    | none => r.turn s

/-- The value right behind a letter; an equals sign in between does not count. -/
def attachedTo (rest : List Char) : Option String :=
  match rest with
  | [] => none
  | '=' :: value => some (String.ofList value)
  | value => some (String.ofList value)

def byLetters (r : Reading) : List Char → Except Stop Reading
  | [] => .ok r
  | c :: rest =>
    match meaningOfLetter? c with
    | none => .error (.refused (.unexpectedArgument (String.ofList ['-', c])))
    | some (.valued v) => r.expect v (attachedTo rest)
    | some (.switch s) =>
      match r.turn s with
      | .error e => .error e
      | .ok r => r.byLetters rest

def byPlace (r : Reading) (argument : String) : Except Stop Reading :=
  if r.script.isSome || r.pending.any (·.1 = .script) then
    .error (.refused (.unexpectedArgument argument))
  else
    match r.settle with
    | .error e => .error e
    | .ok r => .ok { r with pending := some (.script, some argument) }

/-- Digits, of which a point and an exponent may be part. -/
def isNumber (s : List Char) : Bool :=
  go true false false s
where
  /-- The rest of a number, with what came before it: nothing, a point, an exponent. -/
  go (first point exponent : Bool) : List Char → Bool
    | [] => true
    | c :: rest =>
      if c.isDigit then go false point exponent rest
      else if c = '.' then !first && !point && !exponent && go false true exponent rest
      else if c = 'e' then !first && !exponent && !rest.isEmpty && go false point true rest
      else false

/-- Whether an argument is the value that is waited for, though it begins with a dash. -/
def isAwaited (r : Reading) (behindDash : List Char) : Bool :=
  r.waiting && r.pending.any (·.1 = .limit) && isNumber behindDash

/-- A value that was waited for, or an argument. -/
def byValue (r : Reading) (argument : String) : Except Stop Reading :=
  match r.waiting, r.pending with
  | true, some (v, _) => .ok { r with pending := some (v, some argument), waiting := false }
  | _, _ => r.byPlace argument

def next (r : Reading) (argument : String) : Except Stop Reading :=
  if r.plain then r.byPlace argument
  else
    match argument.toList with
    | ['-', '-'] => .ok { r with plain := true }
    | '-' :: '-' :: rest =>
      let name := rest.takeWhile (· ≠ '=')
      r.byName (String.ofList name)
        (if rest.contains '=' then some (String.ofList (rest.drop (name.length + 1))) else none)
    | '-' :: c :: rest =>
      if r.isAwaited (c :: rest) then r.byValue argument else r.byLetters (c :: rest)
    | _ => r.byValue argument

/-- What was read, as what a run is asked to do. -/
def finish (r : Reading) : Except Stop Invocation :=
  match r.settle with
  | .error e => .error e
  | .ok r =>
    match r.script with
    | none => .error (.refused .scriptMissing)
    | some script =>
      .ok ⟨script, r.model, r.switches.contains .execute, r.output, r.switches.contains .dryRun,
        r.switches.contains .verbose, r.limit.getD 0, r.switches.contains .noCache⟩

def all (r : Reading) : List String → Except Stop Reading
  | [] => .ok r
  | argument :: rest =>
    match r.next argument with
    | .error e => .error e
    | .ok r => r.all rest

end Reading

def Invocation.read (arguments : List String) : Except Stop Invocation :=
  match Reading.start.all arguments with
  | .error e => .error e
  | .ok r => r.finish

end PromptRunner.CommandLine
