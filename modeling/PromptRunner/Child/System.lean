import PromptRunner.Child.Script.Run

/-!
# Starting programs

A program is named by a path or looked for in the directories that a variable lists. What is found
has to be a file that may be run. A file whose first line names an interpreter is run by it, with
its own path as an argument; a tool of the system is known by where it lies; nothing else can be
run.

Interpreters may be scripts themselves, and scripts start programs. How deep this may go is bounded.
-/

namespace PromptRunner.Child

open PromptRunner.Text PromptRunner.Files

/-- Where programs are looked for if no variable says. -/
def usualDirectories : String := "/bin:/usr/bin"

/-- How deep programs may start others. -/
def launchDepth : Nat := 64

/-- Variables set in front of a program's name, and the rest. -/
def settingsBefore : List String → Environment × List String
  | [] => ([], [])
  | a :: rest =>
    if a.contains '=' then
      let (found, rest) := settingsBefore rest
      ((String.ofList (a.toList.takeWhile (· ≠ '=')),
        String.ofList ((a.toList.dropWhile (· ≠ '=')).drop 1)) :: found, rest)
    else ([], a :: rest)

/-- Variables written out, or a program started with some of them set. -/
def env (launch : Launcher) : Tool := fun p =>
  let bare := p.arguments.head? = some "-i"
  let (set, rest) := settingsBefore (if bare then p.arguments.drop 1 else p.arguments)
  let old := if bare then [] else p.environment.filter fun (n, _) => (set.lookup n).isNone
  let all := old ++ set
  match rest with
  | [] => p.writes (bytesOf (String.join (all.map fun (n, v) => n ++ "=" ++ v ++ "\n")))
  | program :: arguments =>
    match launch { p with program := program, arguments := arguments, environment := all } with
    | .ok f => f
    | .error e =>
      p.refuses (if e.isNotFound then 127 else 126) (FileTools.shown program ++ ": " ++ reason e)

/-- The tools of the system, by name. -/
def tools (launch : Launcher) : List (String × Tool) :=
  [("sh", Script.interpreter launch), ("dash", Script.interpreter launch), ("env", env launch),
    ("cat", Filters.cat), ("head", Filters.head), ("tail", Filters.tail), ("wc", Filters.wc),
    ("tr", Filters.tr), ("sed", Filters.sed), ("sort", Filters.sort), ("uniq", Filters.uniq),
    ("grep", Filters.grep), ("cut", Filters.cut), ("rev", Filters.rev), ("tee", Filters.tee),
    ("seq", Filters.seq), ("echo", Filters.echo), ("printf", Filters.printf),
    ("ls", FileTools.ls), ("mkdir", FileTools.mkdir), ("rm", FileTools.rm),
    ("rmdir", FileTools.rmdir), ("mv", FileTools.mv), ("cp", FileTools.cp),
    ("touch", FileTools.touch), ("ln", FileTools.ln), ("chmod", FileTools.chmod),
    ("readlink", FileTools.readlink), ("dirname", FileTools.dirname),
    ("basename", FileTools.basename), ("pwd", FileTools.pwd), ("test", Condition.tool),
    ("[", Condition.tool), ("true", fun p => p.writes []), ("sleep", fun p => p.writes []),
    ("false", fun p => { p.writes [] with ending := .exited 1 })]

def toolNames : List String := (tools fun _ => .error (.system .noEntry)).map (·.1)

def toolAt? (launch : Launcher) (loc : Location) : Option Tool :=
  match loc with
  | name :: directory =>
    if directory = ["bin"] || directory = ["bin", "usr"] then (tools launch).lookup name else none
  | [] => none

/-- A file that may be run. -/
structure Runnable where
  path : String
  location : Location
  content : Bytes

/-- The file that a path names, if it may be run. -/
def runnable (p : Process) (path : String) : Except Errno Runnable :=
  match stat p.tree p.cwd path with
  | .ok (loc, .file f) =>
    if f.executable then .ok ⟨path, loc, f.content⟩ else .error .permissionDenied
  | .ok _ => .error .permissionDenied
  | .error (.system e) => .error e
  | .error _ => .error .noEntry

/-- The first file in some directories that may be run. One that may not be is remembered, and so is
the cause that stopped the search. -/
def searchIn (p : Process) : Bool → List String → Except Errno Runnable
  | forbidden, [] => .error (if forbidden then .permissionDenied else .noEntry)
  | forbidden, directory :: rest =>
    match runnable p (if directory.isEmpty then p.program else directory ++ "/" ++ p.program) with
    | .ok found => .ok found
    | .error .permissionDenied => searchIn p true rest
    | .error .noEntry => searchIn p forbidden rest
    | .error .notDirectory => searchIn p forbidden rest
    | .error e => .error e

def find (p : Process) : Except Errno Runnable :=
  if p.program.isEmpty then .error .noEntry
  else if p.program.contains '/' then runnable p p.program
  else
    let listed := (p.environment.lookup "PATH").getD usualDirectories
    searchIn p false ((cutAt ':' listed.toList).map String.ofList)

/-- The interpreter that a first line names, with its argument if there is one. -/
def interpreterOf? (content : Bytes) : Option (String × List String) :=
  let line := decodeLossy (content.takeWhile (· ≠ 10))
  (afterStart? ['#', '!'] line).bind fun rest =>
    let rest := trim rest
    let program := rest.takeWhile fun c => c ≠ ' ' && c ≠ '\t'
    let argument := trim (rest.drop program.length)
    if program.isEmpty then none
    else
      some (String.ofList program, if argument.isEmpty then [] else [String.ofList argument])

/-- A process handed to the interpreter that its file names. -/
def Process.throughInterpreter (p : Process) (path program : String) (arguments : List String) :
    Process :=
  { p with program := program, arguments := arguments ++ path :: p.arguments }

/-- Starts programs, which may start others so deep. -/
def launchWithin : Nat → Launcher
  | 0 => fun _ => .error (.system .tooManyLinks)
  | depth + 1 => fun p =>
    let launch := launchWithin depth
    if p.program.contains '\x00' || p.arguments.any (·.contains '\x00') then .error .nulInArgument
    else
      match find p with
      | .error e => .error (.system e)
      | .ok file =>
        match interpreterOf? file.content with
        | some (program, arguments) =>
          if program.contains '/' then launch (p.throughInterpreter file.path program arguments)
          else launch (p.throughInterpreter file.path (Path.join p.cwd.path program) arguments)
        | none =>
          match toolAt? launch file.location with
          | some tool => .ok (tool p)
          | none => .error (.system .notExecutable)

def launch : Launcher := launchWithin launchDepth

end PromptRunner.Child
