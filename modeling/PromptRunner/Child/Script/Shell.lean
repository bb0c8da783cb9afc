import PromptRunner.Child.Process
import PromptRunner.Child.Script.Syntax

/-!
# What a script runs in

While a script runs it has arguments, variables, a current directory and files, something left to
read, what it has written so far to which descriptor, and the status of the last command. `Flow`
says whether the next command is run, or what ends on the way to it.

What a script writes goes where its descriptors lead, and the order of what was written is kept. A
part that runs apart starts with descriptors of its own, and leaves files, a status and what it
wrote.

What a signal does can be changed: it is passed over, or commands are kept that run in its place. A
signal of no number, 0, stands for the end of the script.
-/

namespace PromptRunner.Child.Script

open PromptRunner.Text PromptRunner.Files

/-- What happens behind a command. -/
inductive Flow where
  | onward
  | leaving
  | returning
  | breaking (loops : Nat)
  | continuing (loops : Nat)
  | killed (signal : Nat)
  deriving DecidableEq, Repr

/-- Where what is written to a descriptor goes. -/
inductive Target where
  | descriptor (n : Nat)
  | file (path : String)
  | nowhere
  deriving DecidableEq, Repr

/-- A running script. -/
structure Shell where
  name : String
  arguments : List String
  values : Environment
  exported : List String
  functions : List (String × Command)
  tree : Tree
  cwd : Location
  now : Int
  input : Bytes
  written : List (Nat × Bytes)
  status : Nat
  substituted : Option Nat
  flow : Flow
  strict : Bool
  settled : Bool
  standing : List (Nat × Target)
  kept : List (Nat × String)
  due : Option String

def processNumber : Nat := 4242

namespace Shell

def adds (s : Shell) (path : String) (bytes : Bytes) : Shell :=
  let before := match readBytes s.tree s.cwd path with
    | .ok bytes => bytes
    | .error _ => []
  match writeFile s.tree s.cwd s.now path (before ++ bytes) with
  | .ok tree => { s with tree := tree }
  | .error _ => s

def target (s : Shell) (descriptor : Nat) : Target :=
  (s.standing.lookup descriptor).getD (.descriptor descriptor)

def writes (s : Shell) (descriptor : Nat) (bytes : Bytes) : Shell :=
  if bytes.isEmpty then s
  else
    match s.target descriptor with
    | .descriptor n => { s with written := (n, bytes) :: s.written }
    | .file path => s.adds path bytes
    | .nowhere => s

/-- The script after it wrote to several descriptors; what was written last comes first. -/
def writesAll (s : Shell) (written : List (Nat × Bytes)) : Shell :=
  written.reverse.foldl (fun s (n, bytes) => s.writes n bytes) s

def wrote (s : Shell) (descriptor : Nat) : Bytes :=
  (s.written.reverse.filter (·.1 = descriptor)).flatMap (·.2)

def with_ (s : Shell) (status : Nat) : Shell := { s with status := status }

/-- The script after it complained, with a status. -/
def complains (s : Shell) (line : Nat) (text : String) (status : Nat) : Shell :=
  (s.writes 2 (bytesOf (s.name ++ ": " ++ toString line ++ ": " ++ text ++ "\n"))).with_ status

def value (s : Shell) (name : String) : String := (s.values.lookup name).getD ""

def assign (s : Shell) (name value : String) : Shell :=
  { s with values := (name, value) :: s.values.filter (·.1 ≠ name) }

/-- The script with a variable handed on to programs. -/
def export_ (s : Shell) (name : String) : Shell :=
  { s with exported := name :: s.exported.filter (· ≠ name) }

def environment (s : Shell) : Environment :=
  s.values.filter fun (name, _) => s.exported.contains name

/-- The script as a part of it sees it that runs apart; a signal stays passed over, but commands
kept for signals do not go along. -/
def part (s : Shell) : Shell :=
  { s with
    written := []
    flow := .onward
    standing := []
    kept := s.kept.filter (·.2.isEmpty) }

/-- The script after a part of it ran apart: files, status and a signal are what is left of it. -/
def afterPart (s inner : Shell) (written : List (Nat × Bytes)) : Shell :=
  { s with
    tree := inner.tree
    status := inner.status
    flow := match inner.flow with
      | .killed signal => .killed signal
      | _ => s.flow }.writesAll written

def process (s : Shell) (program : String) (arguments : List String) : Process :=
  ⟨program, arguments, s.tree, s.cwd, s.environment, s.input, s.now⟩

def afterProgram (s : Shell) (f : Finished) : Shell :=
  (({ s with tree := f.tree }.writes 1 f.output).writes 2 f.errors).with_ f.ending.status

def parameter? (s : Shell) (name : List Char) : Option String :=
  match name with
  | ['?'] => some (toString s.status)
  | ['$'] => some (toString processNumber)
  | ['#'] => some (toString s.arguments.length)
  | ['@'] => if s.arguments.isEmpty then none else some (" ".intercalate s.arguments)
  | ['*'] => if s.arguments.isEmpty then none else some (" ".intercalate s.arguments)
  | ['-'] => some ""
  | ['!'] => none
  | ['0'] => some s.name
  | name =>
    match (String.ofList name).toNat? with
    | some n => s.arguments[n - 1]?
    | none => s.values.lookup (String.ofList name)

end Shell

end PromptRunner.Child.Script
