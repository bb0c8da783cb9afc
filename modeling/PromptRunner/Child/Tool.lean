import PromptRunner.Child.Process

/-!
# Tools

A tool is a program that comes with the system and always does the same with the same: it reads its
arguments and its input, changes files, writes, and ends with a status. Letters behind a dash switch
something on or take a value, and all other arguments are operands; what cannot be read is
complained about, and the tool goes on with the rest.
-/

namespace PromptRunner.Child

open PromptRunner.Text PromptRunner.Files

/-- What a program that comes with the system does. -/
abbrev Tool := Process → Finished

/-- Arguments sorted by what they are. -/
structure Arguments where
  letters : List Char
  values : List (Char × String)
  operands : List String
  deriving Repr

namespace Arguments

/-- Letters that switch something on, up to one that takes a value, and what stands behind that. -/
def splitLetters (valued : List Char) : List Char → List Char × Option (Char × List Char)
  | [] => ([], none)
  | c :: rest =>
    if valued.contains c then ([], some (c, rest))
    else
      let (letters, value) := splitLetters valued rest
      (c :: letters, value)

/-- Arguments read, where some letters take a value. -/
def read (valued : List Char) : List String → Arguments
  | [] => ⟨[], [], []⟩
  | a :: rest =>
    match a.toList with
    | '-' :: c :: more =>
      if a = "--" then ⟨[], [], rest⟩
      else
        match splitLetters valued (c :: more), rest with
        | (letters, none), rest =>
          let others := read valued rest
          { others with letters := letters ++ others.letters }
        | (letters, some (c, [])), value :: rest =>
          let others := read valued rest
          { others with
            letters := letters ++ others.letters
            values := (c, value) :: others.values }
        | (letters, some (_, [])), [] => ⟨letters, [], []⟩
        | (letters, some (c, value)), rest =>
          let others := read valued rest
          { others with
            letters := letters ++ others.letters
            values := (c, String.ofList value) :: others.values }
    | _ =>
      let others := read valued rest
      { others with operands := a :: others.operands }

def has (a : Arguments) (c : Char) : Bool := a.letters.contains c

/-- The value of a letter; of several the last. -/
def value? (a : Arguments) (c : Char) : Option String := a.values.reverse.lookup c

def number? (a : Arguments) (c : Char) : Option Nat := (a.value? c).bind String.toNat?

end Arguments

def reason : IoError → String
  | .system cause => cause.text
  | e => e.message

namespace Process

def writes (p : Process) (output : Bytes) : Finished := ⟨.exited 0, p.tree, output, []⟩

def worded (p : Process) (complaints : List String) : Bytes :=
  bytesOf (String.join (complaints.map fun c => p.program ++ ": " ++ c ++ "\n"))

/-- A tool's end after it wrote something and complained, with a status for the complaints. -/
def ends (p : Process) (status : Nat) (tree : Tree) (output : Bytes) (complaints : List String) :
    Finished :=
  ⟨.exited (if complaints.isEmpty then 0 else status), tree, output, p.worded complaints⟩

def refuses (p : Process) (status : Nat) (complaint : String) : Finished :=
  p.ends status p.tree [] [complaint]

/-- What an operand names: a file, or what there is to read. -/
def source (p : Process) (name : String) : Except String Bytes :=
  if name = "-" then .ok p.input
  else
    match readBytes p.tree p.cwd name with
    | .ok bytes => .ok bytes
    | .error e => .error (name ++ ": " ++ reason e)

/-- What all operands name, joined, and complaints about those that name nothing readable. -/
def sources (p : Process) (names : List String) : Bytes × List String :=
  if names.isEmpty then (p.input, [])
  else
    let all := names.map p.source
    (all.flatMap fun s => match s with | .ok bytes => bytes | .error _ => [],
      all.filterMap fun s => match s with | .ok _ => none | .error e => some e)

/-- A tool's end after it changed what its operands name. -/
def changes (p : Process) (names : List String) (change : Bytes → Bytes) : Finished :=
  let (bytes, complaints) := p.sources names
  p.ends 1 p.tree (change bytes) complaints

/-- Operands worked on one after the other, each with the tree that the last one left; those that
cannot be worked on leave it unchanged and are complained about. -/
def each (p : Process) (work : Tree → String → Except String Tree) (names : List String) :
    Finished :=
  let (tree, complaints) := names.foldl (fun (tree, complaints) name =>
    match work tree name with
    | .ok tree => (tree, complaints)
    | .error e => (tree, complaints ++ [e])) (p.tree, [])
  p.ends 1 tree [] complaints

end Process

end PromptRunner.Child
