import PromptRunner.Answer
import PromptRunner.Cache.Directory
import PromptRunner.CommandLine.Help
import PromptRunner.CommandLine.Variables
import PromptRunner.Execution
import PromptRunner.Generation
import PromptRunner.Provider.Chat
import PromptRunner.Request

/-!
# A run of the program

A run goes from the request over the answer to the code, and shows the code, keeps it, or runs it.
What goes wrong on the way ends the run with a line that says so and with status one; a command line
that cannot be read ends it with status two; otherwise the status is zero, or that of the code that
was run.

What a run needs of the world outside is handed in: the files, the environment, the network, and
what starts programs. What it leaves is a `Report`.
-/

namespace PromptRunner.CommandLine

open PromptRunner.Files PromptRunner.Text PromptRunner.Child

/-- The world outside of a run, apart from its files. -/
structure World where
  surroundings : Surroundings
  environment : Environment
  network : Web.Network
  launch : Launcher
  input : Bytes

/-- What a run leaves: its status, what it wrote, the files, and where it ended. -/
structure Report where
  status : Nat
  output : Bytes
  errors : Bytes
  tree : Tree
  cwd : Location
  asked : Option Provider.Query

/-- What is kept of a run while it goes on. -/
structure Progress where
  output : Bytes
  tree : Tree
  asked : Option Provider.Query

namespace Progress

def say (p : Progress) (line : String) : Progress :=
  { p with output := p.output ++ bytesOf (line ++ "\n") }

def sayIf (p : Progress) (wanted : Bool) (line : String) : Progress :=
  if wanted then p.say line else p

def ends (p : Progress) (w : World) (status : Nat) : Report :=
  ⟨status, p.output, [], p.tree, w.surroundings.cwd, p.asked⟩

/-- The report of a run that something went wrong in. -/
def fails (p : Progress) (w : World) (account : String) : Report :=
  { p.ends w 1 with errors := bytesOf ("Error: " ++ account ++ "\n") }

end Progress

def separator : String := String.ofList (List.replicate 50 '-')

/-- The failure of a step with a word on what the step was. -/
def during (step path account : String) : String := step ++ " " ++ path ++ ": " ++ account

def modelOf (i : Invocation) (s : Settings) : String := i.model.getD s.model

/-- What a run demands of the cache and the provider. -/
def demandOf (i : Invocation) (s : Settings) (r : Request) : Demand :=
  ⟨modelOf i s, r.text, i.limit, i.noCache || i.limit < 0⟩

def execution (w : World) (s : Settings) (r : Request) (p : Progress) (code : String) :
    Execution :=
  let runner := Runner.ofSettings s
  match r.origin with
  | .file path => runner.runFor w.launch w.surroundings w.environment w.input p.tree code path
  | .inline =>
    runner.runIn w.launch w.surroundings w.environment w.input p.tree code
      w.surroundings.cwd.path

def runCode (w : World) (s : Settings) (i : Invocation) (r : Request) (p : Progress)
    (code : String) : Report :=
  let p := (p.sayIf i.verbose "\nExecuting generated code:").sayIf i.verbose separator
  let x := execution w s r p code
  let p : Progress := { p with tree := x.tree, output := p.output ++ x.output }
  match x.result with
  | .ok status => { p.ends w status with errors := x.errors, cwd := x.cwd }
  | .error f =>
    let report := p.fails w f.account
    { report with errors := x.errors ++ report.errors, cwd := x.cwd }

def executes (i : Invocation) : Bool := i.execute || i.output.isNone

/-- The code of a run kept where that is wanted, and executed if it is to be. -/
def keepCode (w : World) (s : Settings) (i : Invocation) (r : Request) (p : Progress)
    (code : String) : Report :=
  match i.output with
  | none => runCode w s i r p code
  | some path =>
    match writeFile p.tree w.surroundings.cwd w.surroundings.now path (bytesOf code) with
    | .error e => p.fails w (during "Failed to write generated code to" path e.message)
    | .ok tree =>
      let p := { p with tree := tree }.sayIf i.verbose ("\nCode saved to: " ++ path)
      if executes i then runCode w s i r p code else p.ends w 0

/-- The code of a run shown, kept and executed, as far as each is wanted. -/
def useCode (w : World) (s : Settings) (i : Invocation) (r : Request) (p : Progress)
    (code : String) : Report :=
  let p := (p.sayIf i.verbose "Generated code:").sayIf i.verbose separator
  let p := p.sayIf (i.dryRun || i.verbose) code
  if i.dryRun then p.ends w 0 else keepCode w s i r p code

/-- The answer to a request, and what is done with it. -/
def answer (w : World) (s : Settings) (i : Invocation) (r : Request) (directory : String)
    (p : Progress) : Report :=
  let provider := Provider.ofSettings s (modelOf i s)
  let o := Generation.generate (provider.chat w.network) w.surroundings p.tree directory
    (demandOf i s r)
  let p := { p with tree := o.tree, asked := o.asked }
  match o.result with
  | .error f => p.fails w f.account
  | .ok text => useCode w s i r p (Answer.extractCode text)

def proceed (w : World) (t : Tree) (s : Settings) (i : Invocation) : Report :=
  let cwd := w.surroundings.cwd
  let directory := Cache.directory t cwd cwd.path s.cacheDirectory w.environment
  let p : Progress := ⟨[], t, none⟩
  match Request.resolve t cwd i.script with
  | .error f => p.fails w f.account
  | .ok r =>
    let p := ((p.sayIf i.verbose ("Using model: " ++ modelOf i s)).sayIf i.verbose
      ("Request: " ++ r.text)).sayIf i.verbose separator
    match Cache.ensureDirectory t cwd directory with
    | .error (e, t) =>
      { p with tree := t }.fails w
        (during "Failed to create cache directory" directory e.message)
    | .ok t => answer w s i r directory { p with tree := t }

def carryOut (w : World) (t : Tree) (i : Invocation) : Report :=
  let cwd := w.surroundings.cwd
  let w := { w with environment := Variables.load t cwd w.environment }
  match Settings.load t cwd w.environment with
  | .error f => Progress.fails ⟨[], t, none⟩ w f.message
  | .ok s => proceed w t s i

def run (w : World) (t : Tree) (arguments : List String) : Report :=
  let p : Progress := ⟨[], t, none⟩
  match Invocation.read arguments with
  | .ok i => carryOut w t i
  | .error .help => { p with output := bytesOf helpText }.ends w 0
  | .error .version => { p with output := bytesOf versionText }.ends w 0
  | .error (.refused e) => { p.ends w 2 with errors := bytesOf (usageText e) }

end PromptRunner.CommandLine
