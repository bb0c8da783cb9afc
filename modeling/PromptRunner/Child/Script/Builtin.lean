import PromptRunner.Child.Condition
import PromptRunner.Child.Filters
import PromptRunner.Child.FileTools
import PromptRunner.Child.Script.Shell

/-!
# Commands of the script itself

Some commands change what the script runs in: its variables, its arguments, its directory, what
signals do to it, or whether it goes on. They are functions of the script, of the line they stand on
and of their arguments. Others are tools that every script brings along.
-/

namespace PromptRunner.Child.Script

open PromptRunner.Text PromptRunner.Files

namespace Shell

def signals : List (String × Nat) :=
  [("HUP", 1), ("INT", 2), ("QUIT", 3), ("ILL", 4), ("TRAP", 5), ("ABRT", 6), ("IOT", 6),
    ("BUS", 7), ("FPE", 8), ("KILL", 9), ("USR1", 10), ("SEGV", 11), ("USR2", 12), ("PIPE", 13),
    ("ALRM", 14), ("TERM", 15), ("STKFLT", 16), ("CHLD", 17), ("CONT", 18), ("URG", 23),
    ("XCPU", 24), ("XFSZ", 25), ("VTALRM", 26), ("PROF", 27), ("WINCH", 28),
    ("POLL", 29), ("IO", 29), ("PWR", 30), ("SYS", 31)]

def ignoredSignals : List Nat := [0, 17, 18, 23, 28]

def signal? (text : String) : Option Nat :=
  match text.toNat? with
  | some n => if n ≤ 64 then some n else none
  | none =>
    let name := text.toList.map Char.toUpper
    signals.lookup (String.ofList ((afterStart? "SIG".toList name).getD name))

def kill (s : Shell) (line : Nat) (arguments : List String) : Shell :=
  let (chosen, processes) : String × List String :=
    match arguments with
    | "-s" :: name :: rest => (name, rest)
    | first :: rest =>
      match first.toList with
      | '-' :: name => (String.ofList name, rest)
      | _ => ("TERM", arguments)
    | [] => ("TERM", [])
  let processes := if processes.head? = some "--" then processes.drop 1 else processes
  match signal? chosen with
  | none => s.complains line ("kill: invalid signal number or name: " ++ chosen) 2
  | some signal =>
    if processes.isEmpty then s.complains line "kill: Usage: kill [-s sigspec | -signum] pid" 2
    else if processes.all (· = toString processNumber) then
      match if signal = 9 then none else s.kept.lookup signal with
      | some "" => s.with_ 0
      | some commands => { s.with_ 0 with due := some commands }
      | none =>
        if ignoredSignals.contains signal then s.with_ 0 else { s with flow := .killed signal }
    else s.complains line "kill: No such process" 1

/-- Commands kept for signals: given first, or a dash to have none; a signal alone is let go too. -/
def keeps (s : Shell) (line : Nat) (arguments : List String) : Shell :=
  let (commands, names) : Option String × List String :=
    match if arguments.head? = some "--" then arguments.drop 1 else arguments with
    | [] => (none, [])
    | [name] => (none, [name])
    | first :: names =>
      if first = "-" || first.toNat?.isSome then (none, first :: names) else (some first, names)
  let names := names.filter (· ≠ "-")
  names.foldl (fun s name =>
    match if name = "EXIT" then some 0 else signal? name with
    | none => s.complains line ("trap: " ++ name ++ ": bad trap") 1
    | some signal =>
      let others := s.kept.filter (·.1 ≠ signal)
      { s with kept := match commands with
          | some commands => (signal, commands) :: others
          | none => others }) (s.with_ 0)

/-- The greatest number that a script may be left with. -/
def numberMax : Nat := 2147483647

/-- The script left with a status, the last one if none is given. -/
def exits (s : Shell) (line : Nat) (name : String) (flow : Flow) (arguments : List String) :
    Shell :=
  match arguments with
  | [] => { s with flow := flow }
  | text :: _ =>
    match text.toNat?.filter (· ≤ numberMax) with
    | some n => { s.with_ (n % 256) with flow := flow }
    | none => { s.complains line (name ++ ": Illegal number: " ++ text) 2 with flow := .leaving }

/-- A path joined to another, where two dots take back the name before them. -/
def walked (start path : String) : String :=
  let from_ := if startsWith path.toList ['/'] then [] else cutAt '/' start.toList
  let names := (from_ ++ cutAt '/' path.toList).foldl (fun before name =>
    if name.isEmpty || name = ['.'] then before
    else if name = ['.', '.'] then before.drop 1
    else name :: before) []
  String.ofList ('/' :: joinWith '/' names.reverse)

/-- The current directory changed; it is known by the names that led to it. -/
def changes (s : Shell) (line : Nat) (arguments : List String) : Shell :=
  let target := match arguments with
    | [] => s.value "HOME"
    | "-" :: _ => s.value "OLDPWD"
    | path :: _ => path
  if target.isEmpty then s.with_ 0
  else
    let path := walked (s.value "PWD") target
    match changeDirectory s.tree s.cwd path with
    | .ok cwd =>
      let s := (({ s with cwd := cwd }.assign "OLDPWD" (s.value "PWD")).assign "PWD" path).with_ 0
      let s := (s.export_ "OLDPWD").export_ "PWD"
      if arguments.head? = some "-" then s.writes 1 (bytesOf (path ++ "\n")) else s
    | .error _ => s.complains line ("cd: can't cd to " ++ target) 2

/-- The current directory written out, by the names that led to it or by its own. -/
def place (s : Shell) (arguments : List String) : Shell :=
  let path := if arguments.contains "-P" then s.cwd.path else s.value "PWD"
  (s.writes 1 (bytesOf (path ++ "\n"))).with_ 0

/-- Variables named, and set where an equals sign says to what. -/
def declares (s : Shell) (exports : Bool) (arguments : List String) : Shell :=
  (arguments.foldl (fun s a =>
    let name := String.ofList (a.toList.takeWhile (· ≠ '='))
    let s := if a.contains '=' then
        s.assign name (String.ofList ((a.toList.dropWhile (· ≠ '=')).drop 1))
      else s
    if exports then s.export_ name else s) s).with_ 0

/-- A line that is read into variables: the last takes what is left. -/
def splitLine : List String → List Char → List (String × String)
  | [], _ => []
  | [name], s => [(name, String.ofList (trim s))]
  | name :: names, s =>
    let s := trimStart s
    (name, String.ofList (s.takeWhile fun c => !isBlank c)) ::
      splitLine names (s.dropWhile fun c => !isBlank c)

def reads (s : Shell) (arguments : List String) : Shell :=
  let names := arguments.filter (· ≠ "-r")
  let line := s.input.takeWhile (· ≠ 10)
  let rest := (s.input.drop line.length).drop 1
  let s' := (splitLine names (decodeLossy line)).foldl
    (fun s (name, value) => s.assign name value) { s with input := rest }
  s'.with_ (if line.length < s.input.length then 0 else 1)

/-- Switches turned on or off, and arguments replaced by those behind them. -/
def sets : Shell → List String → Shell
  | s, [] => s.with_ 0
  | s, "--" :: rest => { s.with_ 0 with arguments := rest }
  | s, first :: rest =>
    match first.toList with
    | '-' :: letters =>
      sets
        { s with
          strict := s.strict || letters.contains 'e'
          settled := s.settled || letters.contains 'u' } rest
    | '+' :: letters =>
      sets
        { s with
          strict := s.strict && !letters.contains 'e'
          settled := s.settled && !letters.contains 'u' } rest
    | _ => { s.with_ 0 with arguments := first :: rest }

def echoes (s : Shell) (arguments : List String) : Shell :=
  let (ends, words) : Bool × List String := match arguments with
    | "-n" :: rest => (false, rest)
    | all => (true, all)
  let text := (" ".intercalate words).toList
  let (bytes, stopped) := unescape true (text.length + 1) text
  (s.writes 1 (if ends && !stopped then bytes ++ [10] else bytes)).with_ 0

/-- The command of the script itself that has a name, if there is one. -/
def builtin? (name : String) : Option (Shell → Nat → List String → Shell) :=
  let tool (t : Tool) : Option (Shell → Nat → List String → Shell) :=
    some fun s _ arguments => s.afterProgram (t (s.process name arguments))
  let count (arguments : List String) : Nat := ((arguments.head?).bind String.toNat?).getD 1
  match name with
  | ":" => some fun s _ _ => s.with_ 0
  | "true" => some fun s _ _ => s.with_ 0
  | "false" => some fun s _ _ => s.with_ 1
  | "echo" => some fun s _ arguments => s.echoes arguments
  | "printf" => tool Filters.printf
  | "test" => tool Condition.tool
  | "[" => tool Condition.tool
  | "pwd" => some fun s _ arguments => s.place arguments
  | "cd" => some changes
  | "exit" => some fun s line arguments => s.exits line "exit" .leaving arguments
  | "return" => some fun s line arguments => s.exits line "return" .returning arguments
  | "break" => some fun s _ arguments => { s.with_ 0 with flow := .breaking (count arguments) }
  | "continue" => some fun s _ arguments => { s.with_ 0 with flow := .continuing (count arguments) }
  | "kill" => some kill
  | "export" => some fun s _ arguments => s.declares true arguments
  | "readonly" => some fun s _ arguments => s.declares false arguments
  | "local" => some fun s _ arguments => s.declares false arguments
  | "unset" =>
    some fun s _ arguments =>
      { s.with_ 0 with values := s.values.filter fun (n, _) => !arguments.contains n }
  | "read" => some fun s _ arguments => s.reads arguments
  | "shift" =>
    some fun s _ arguments => { s.with_ 0 with arguments := s.arguments.drop (count arguments) }
  | "set" => some fun s _ arguments => s.sets arguments
  | "umask" =>
    some fun s _ arguments =>
      (if arguments.isEmpty then s.writes 1 (bytesOf "0022\n") else s).with_ 0
  | "wait" => some fun s _ _ => s.with_ 0
  | "trap" => some keeps
  | _ => none

/-- Commands whose failed redirection ends the script. -/
def isVital (name : String) : Bool :=
  [":", ".", "break", "continue", "eval", "exec", "exit", "export", "readonly", "return", "set",
    "shift", "trap", "unset"].contains name

/-- Where a command is found: by its own name, or the file that would be run. -/
def located? (s : Shell) (name : String) : Option String :=
  let runs (path : String) : Bool :=
    match stat s.tree s.cwd path with
    | .ok (_, .file f) => f.executable
    | _ => false
  if (s.functions.lookup name).isSome || (builtin? name).isSome || isVital name then some name
  else if name.contains '/' then (some name).filter runs
  else
    ((cutAt ':' (s.value "PATH").toList).map fun d => String.ofList d ++ "/" ++ name).find? runs

end Shell

end PromptRunner.Child.Script
