import PromptRunner.Child.Script.Builtin
import PromptRunner.Child.Script.Grammar
import PromptRunner.Child.Script.Redirect
import PromptRunner.Child.Script.Sum
import PromptRunner.Child.Script.Values

/-!
# Running a script

A script is run command by command. The words of a command are put together when it is its turn:
values are put in, commands inside words are run and what they wrote is put in, and words that match
names of files become these names. Programs that the script does not know itself are started by a
launcher, which is handed in.

Running is bounded by a number of steps, of which every command inside another and every round of a
repetition takes one.
-/

namespace PromptRunner.Child.Script

open PromptRunner.Text PromptRunner.Files

/-- How deep commands may lie in each other, and how often they may be repeated. -/
def stepLimit : Nat := 100000

/-- A script that may go on after a failure, because the failure is asked about. -/
def Shell.lenient (s : Shell) (run : Shell → Shell) : Shell :=
  { run { s with strict := false } with strict := s.strict }

/-- A script that ends at a failure if it is meant to. -/
def Shell.checked (s : Shell) : Shell :=
  if s.strict && s.flow = .onward && s.status ≠ 0 then { s with flow := .leaving } else s

/-- A complaint about a program that could not be started, and its status. -/
def launchComplaint (name : String) (e : IoError) : String × Nat :=
  if e.isNotFound then (name ++ ": not found", 127) else (name ++ ": " ++ reason e, 126)

/-- How a value is changed behind its name. -/
structure Change where
  sign : String
  word : List Char

/-- The change that is written behind a name; a sign with a colon treats empty as not set. -/
def changeOf (s : List Char) : Change :=
  let known := [":-", ":=", ":+", ":?", "###", "%%", "##", "-", "=", "+", "?", "%", "#"]
  match known.find? fun k => startsWith s k.toList with
  | some k => ⟨k, s.drop k.length⟩
  | none => ⟨"", []⟩

mutual

def partItems (launch : Launcher) : Nat → Shell → Bool → Part → Shell × List Shell.Item
  | 0, s, _, _ => (s, [])
  | fuel + 1, s, parts, part =>
    match part with
    | .literal text quoted =>
      (s, if quoted then .text :: text.map (.char · true) else text.map (.char · false))
    | .output source quoted =>
      let (s, bytes) := outputOf launch fuel s source
      let text := (decodeLossy bytes).reverse.dropWhile (· = '\n') |>.reverse
      (s, s.valueItems parts quoted (text.filter (· ≠ '\x00')))
    | .sum source quoted =>
      let (s, items) := wordItems launch fuel s false
        (((quotedParts false (source.length + 1) source).map (·.1)).getD [])
      match sum? (fun name => ((s.value name).toInt?).getD 0) (Shell.oneText items).toList with
      | some n => (s, s.valueItems parts quoted (toString n).toList)
      | none => ({ s.complains 1 "arithmetic expression: expecting primary" 2 with
          flow := .leaving }, [])
    | .parameter name change quoted =>
      parameterItems launch fuel s parts quoted name (changeOf change)

def parameterItems (launch : Launcher) :
    Nat → Shell → Bool → Bool → List Char → Change → Shell × List Shell.Item
  | 0, s, _, _, _, _ => (s, [])
  | fuel + 1, s, parts, quoted, name, change =>
    let value := s.parameter? name
    let must := s.settled && value.isNone && name ≠ ['@'] && name ≠ ['*']
    let isSet := if startsWith change.sign.toList [':'] then value.getD "" ≠ "" else value.isSome
    let plain : List Shell.Item := s.valueItems parts quoted (value.getD "").toList
    let word (s : Shell) : Shell × List Shell.Item :=
      let source := change.word
      let read := if quoted then quotedParts false (source.length + 1) source
        else wordParts (fun _ => false) (source.length + 1) source
      wordItems launch fuel s parts ((read.map (·.1)).getD [])
    match change.sign with
    | "" =>
      if name = ['@'] && parts then
        let each := s.arguments.map fun a =>
          (if quoted then [.text] else []) ++ s.valueItems parts quoted a.toList
        (s, List.intercalate [.stop] each)
      else if must then missing s [] name
      else (s, plain)
    | "###" =>
      if must then missing s [] name
      else
        (s, s.valueItems parts quoted (toString (value.getD "").toList.length).toList)
    | "-" => if isSet then (s, plain) else word s
    | ":-" => if isSet then (s, plain) else word s
    | "+" => if isSet then word s else (s, [])
    | ":+" => if isSet then word s else (s, [])
    | "=" => if isSet then (s, plain) else
      let (s, items) := word s
      (s.assign (String.ofList name) (Shell.oneText items), items)
    | ":=" => if isSet then (s, plain) else
      let (s, items) := word s
      (s.assign (String.ofList name) (Shell.oneText items), items)
    | "?" => if isSet then (s, plain) else missing s (word s).2 name
    | ":?" => if isSet then (s, plain) else missing s (word s).2 name
    | sign =>
      if must then missing s [] name
      else
        let (s, items) := word s
        let pattern := Shell.onePattern items
        let text := (value.getD "").toList
        let cut :=
          match sign with
          | "#" => Shell.withoutStart pattern false text
          | "##" => Shell.withoutStart pattern true text
          | "%" => Shell.withoutEnd pattern false text
          | _ => Shell.withoutEnd pattern true text
        (s, s.valueItems parts quoted cut)
where
  /-- The script left because a value is not set. -/
  missing (s : Shell) (items : List Shell.Item) (name : List Char) : Shell × List Shell.Item :=
    let text := Shell.oneText items
    let text := if text.isEmpty then "parameter not set" else text
    ({ s.complains 1 (String.ofList name ++ ": " ++ text) 2 with flow := .leaving }, [])

def wordItems (launch : Launcher) : Nat → Shell → Bool → Word → Shell × List Shell.Item
  | 0, s, _, _ => (s, [])
  | _, s, _, [] => (s, [])
  | fuel + 1, s, parts, part :: rest =>
    let (s, items) := partItems launch fuel s parts part
    let (s, more) := wordItems launch fuel s parts rest
    (s, items ++ more)

/-- A word that is not parted, as text. -/
def textOf (launch : Launcher) : Nat → Shell → Word → Shell × String
  | 0, s, _ => (s, "")
  | fuel + 1, s, w =>
    let (s, items) := wordItems launch fuel s false (s.withHome w)
    (s, Shell.oneText items)

def fields (launch : Launcher) : Nat → Shell → List Word → Shell × List String
  | 0, s, _ => (s, [])
  | _, s, [] => (s, [])
  | fuel + 1, s, w :: rest =>
    let (s, found) : Shell × List String :=
      if w = [.literal [] true, .parameter ['@'] [] true] then (s, s.arguments)
      else
        let (s, items) := wordItems launch fuel s true (s.withHome w)
        (s, (Shell.words items).flatMap s.matched)
    let (s, more) := fields launch fuel s rest
    (s, found ++ more)

def outputOf (launch : Launcher) : Nat → Shell → List Char → Shell × Bytes
  | 0, s, _ => (s, [])
  | fuel + 1, s, source =>
    let inner := ended launch fuel (lines launch fuel s.part (signsOf source))
    let s := s.afterPart inner (inner.written.filter (·.1 ≠ 1))
    ({ s with substituted := some inner.status }, inner.wrote 1)

def lines (launch : Launcher) : Nat → Shell → List Placed → Shell
  | 0, s, _ => s
  | fuel + 1, s, ps =>
    if s.flow ≠ .onward then s
    else
      match nextCommand ps with
      | .error m =>
        { s.complains m.line ("Syntax error: " ++ m.complaint) 2 with flow := .leaving }
      | .ok none => s
      | .ok (some (c, rest)) => lines launch fuel (run launch fuel s c) rest

/-- The script after commands that a signal made due; its status is kept unless they leave it. -/
def attended (launch : Launcher) : Nat → Shell → Shell
  | 0, s => s
  | fuel + 1, s =>
    match s.due with
    | none => s
    | some commands =>
      let s' := lines launch fuel { s with due := none } (signsOf commands.toList)
      if s'.flow = .onward then s'.with_ s.status else s'

/-- The script at its end: commands kept for it are run, unless a signal has ended it. -/
def ended (launch : Launcher) : Nat → Shell → Shell
  | 0, s => s
  | fuel + 1, s =>
    match s.flow, s.kept.lookup 0 with
    | .killed _, _ => s
    | _, none => s
    | _, some commands =>
      let others := s.kept.filter (·.1 ≠ 0)
      let s' :=
        lines launch fuel { s with flow := .onward, kept := others } (signsOf commands.toList)
      if s'.flow = .onward then s'.with_ s.status else s'

/-- The wiring of redirections, if all of them can be made. -/
def wire (launch : Launcher) : Nat → Shell → Nat → Shell.Wiring → List Redirection →
    Shell × Option Shell.Wiring
  | 0, s, _, _, _ => (s, none)
  | _, s, _, w, [] => (s, some w)
  | fuel + 1, s, line, w, r :: rest =>
    let word := match r.course with
      | .read p => p
      | .write p => p
      | .append p => p
      | .like p => p
      | .text p => p
    let (s, text) := textOf launch fuel s word
    match s.redirect w r.descriptor r.course text with
    | .ok (s, w) => wire launch fuel s line w rest
    | .error complaint => (s.complains line complaint 2, none)

def wired (launch : Launcher) : Nat → Shell → List Redirection → Command → Shell
  | 0, s, _, _ => s
  | fuel + 1, s, rs, c =>
    if rs.isEmpty then run launch fuel s c
    else
      match wire launch fuel s 1 ⟨[], none⟩ rs with
      | (s, none) => s
      | (s, some w) => s.leave w (run launch fuel (s.enter w) c)

/-- Assignments made, each with the values of those before it. -/
def assigned (launch : Launcher) : Nat → Shell → List (String × Word) → Shell
  | 0, s, _ => s
  | _, s, [] => s
  | fuel + 1, s, (name, w) :: rest =>
    let (s, text) := textOf launch fuel s w
    assigned launch fuel (s.assign name text) rest

/-- A program or a command of the script itself, by name. -/
def call (launch : Launcher) : Nat → Shell → Nat → String → List String → Shell
  | 0, s, _, _, _ => s
  | fuel + 1, s, line, name, arguments =>
    match s.functions.lookup name with
    | some body =>
      let s' := run launch fuel { s with arguments := arguments } body
      let s' := { s' with arguments := s.arguments }
      if s'.flow = .returning then { s' with flow := .onward } else s'
    | none =>
      match name, arguments with
      | "eval", words => lines launch fuel s (signsOf (" ".intercalate words).toList)
      | "command", "-v" :: name :: _ =>
        match s.located? name with
        | some found => (s.writes 1 (bytesOf (found ++ "\n"))).with_ 0
        | none => s.with_ 127
      | "command", name :: rest => call launch fuel { s with functions := [] } line name rest
      | "exec", name :: rest =>
        let s := call launch fuel { s with functions := [] } line name rest
        if s.flow = .onward then { s with flow := .leaving } else s
      | ".", path :: _ =>
        match readBytes s.tree s.cwd path with
        | .ok bytes =>
          let s := lines launch fuel s (signsOf (decodeLossy bytes))
          if s.flow = .returning then { s with flow := .onward } else s
        | .error e =>
          { s.complains line (".: cannot open " ++ path ++ ": " ++ Shell.openReason false e) 2 with
            flow := .leaving }
      | _, _ =>
        match Shell.builtin? name with
        | some f => attended launch fuel (f s line arguments)
        | none =>
          match launch (s.process name arguments) with
          | .ok f => s.afterProgram f
          | .error (.system .notExecutable) =>
            match launch (s.process "sh" (name :: arguments)) with
            | .ok f => s.afterProgram f
            | .error _ => s.with_ 126
          | .error e =>
            let (text, status) := launchComplaint name e
            s.complains line text status

/-- One program with its assignments, words and redirections. -/
def simple (launch : Launcher) : Nat → Shell → Nat → List (String × Word) → List Word →
    List Redirection → Shell
  | 0, s, _, _, _, _ => s
  | fuel + 1, s, line, assignments, ws, rs =>
    let (s, found) := fields launch fuel { s with substituted := none } ws
    if s.flow ≠ .onward then s
    else
      match wire launch fuel s line ⟨[], none⟩ rs with
      | (s, none) =>
        if Shell.isVital (found.headD "") then { s with flow := .leaving } else s
      | (s, some w) =>
        match found with
        | [] =>
          let s := assigned launch fuel s assignments
          if s.flow ≠ .onward then s else s.with_ (s.substituted.getD 0)
        | ["exec"] => ((assigned launch fuel s assignments).rewire w).with_ 0
        | name :: arguments =>
          let names := assignments.map (·.1)
          let inner := assigned launch fuel (s.enter w) assignments
          let inner := { inner with exported := names ++ inner.exported }
          let inner := call launch fuel inner line name arguments
          let restored :=
            if names.isEmpty then inner
            else { inner with values := s.values, exported := s.exported }
          s.leave w restored

/-- A command repeated as long as a condition says. -/
def repeat_ (launch : Launcher) : Nat → Shell → Bool → Command → Command → Nat → Shell
  | 0, s, _, _, _, _ => s
  | fuel + 1, s, until_, condition, body, last =>
    let s := s.lenient fun s => run launch fuel s condition
    if s.flow ≠ .onward then afterLoop s
    else if (s.status = 0) = until_ then s.with_ last
    else
      let s := run launch fuel s body
      match s.flow with
      | .onward => repeat_ launch fuel s until_ condition body s.status
      | .continuing n =>
        if n ≤ 1 then repeat_ launch fuel { s with flow := .onward } until_ condition body s.status
        else { s with flow := .continuing (n - 1) }
      | _ => afterLoop s
where
  /-- The script behind a loop that was broken. -/
  afterLoop (s : Shell) : Shell :=
    match s.flow with
    | .breaking n => { s with flow := if n ≤ 1 then .onward else .breaking (n - 1) }
    | _ => s

def forAll (launch : Launcher) : Nat → Shell → String → List String → Command → Shell
  | 0, s, _, _, _ => s
  | _, s, _, [], _ => s
  | fuel + 1, s, name, w :: ws, body =>
    let s := run launch fuel (s.assign name w) body
    match s.flow with
    | .onward => forAll launch fuel s name ws body
    | .continuing n =>
      if n ≤ 1 then forAll launch fuel { s with flow := .onward } name ws body
      else { s with flow := .continuing (n - 1) }
    | .breaking n => { s with flow := if n ≤ 1 then .onward else .breaking (n - 1) }
    | _ => s

/-- The command of the first branch with a pattern that matches. -/
def branch (launch : Launcher) : Nat → Shell → List Char → List (List Word × Command) →
    Shell × Option Command
  | 0, s, _, _ => (s, none)
  | _, s, _, [] => (s, none)
  | fuel + 1, s, subject, ([], _) :: rest => branch launch fuel s subject rest
  | fuel + 1, s, subject, (w :: ws, c) :: rest =>
    let (s, items) := wordItems launch fuel s false w
    if nameMatches (Shell.onePattern items) subject then (s, some c)
    else branch launch fuel s subject ((ws, c) :: rest)

def run (launch : Launcher) : Nat → Shell → Command → Shell
  | 0, s, _ => s
  | fuel + 1, s, c =>
    if s.flow ≠ .onward then s
    else
      match c with
      | .nothing => s
      | .simple line assignments ws rs => (simple launch fuel s line assignments ws rs).checked
      | .sequence a b => run launch fuel (run launch fuel s a) b
      | .both a b =>
        let s := s.lenient fun s => run launch fuel s a
        if s.flow = .onward && s.status = 0 then run launch fuel s b else s
      | .either a b =>
        let s := s.lenient fun s => run launch fuel s a
        if s.flow = .onward && s.status ≠ 0 then run launch fuel s b else s
      | .negated c =>
        let s := s.lenient fun s => run launch fuel s c
        if s.flow = .onward then s.with_ (if s.status = 0 then 1 else 0) else s
      | .pipe a b =>
        let left := run launch fuel { s.part with strict := false } a
        let right := run launch fuel { s.part with tree := left.tree, input := left.wrote 1 } b
        let s := s.afterPart left (left.written.filter (·.1 ≠ 1))
        (s.afterPart right right.written).checked
      | .group body rs => wired launch fuel s rs body
      | .apart body rs =>
        let s' := wired launch fuel s.part rs body
        let s' := ended launch fuel s'
        ({ s.afterPart s' s'.written with input := s'.input }).checked
      | .choose condition body otherwise =>
        let s := s.lenient fun s => run launch fuel s condition
        if s.flow ≠ .onward then s
        else if s.status = 0 then run launch fuel s body
        else run launch fuel (s.with_ 0) otherwise
      | .repeated until_ condition body => repeat_ launch fuel s until_ condition body 0
      | .forEach name ws body =>
        let (s, found) : Shell × List String := match ws with
          | some ws => fields launch fuel s ws
          | none => (s, s.arguments)
        forAll launch fuel (s.with_ 0) name found body
      | .select subject branches =>
        let (s, text) := textOf launch fuel s subject
        match branch launch fuel s text.toList branches with
        | (s, some c) => run launch fuel s c
        | (s, none) => s.with_ 0
      | .define name body =>
        { s.with_ 0 with functions := (name, body) :: s.functions.filter (·.1 ≠ name) }

end

/-- What a script did, all of it. -/
def finished (s : Shell) : Finished :=
  ⟨match s.flow with
    | .killed signal => .killed signal
    | _ => .exited s.status, s.tree, s.wrote 1, s.wrote 2⟩

/-- A script's text run by a process, with a name and arguments of its own. -/
def execute (launch : Launcher) (p : Process) (strict settled : Bool) (name : String)
    (arguments : List String) (source : List Char) : Finished :=
  let values := ("PWD", p.cwd.path) :: p.environment.filter (·.1 ≠ "PWD")
  let s : Shell :=
    { name := name
      arguments := arguments
      values := values
      exported := values.map (·.1)
      functions := []
      tree := p.tree
      cwd := p.cwd
      now := p.now
      input := p.input
      written := []
      status := 0
      substituted := none
      flow := .onward
      strict := strict
      settled := settled
      standing := []
      kept := []
      due := none }
  finished (ended launch stepLimit (lines launch stepLimit s (signsOf source)))

/-- The program that runs scripts: from a file, from an argument, or from what there is to read. -/
def interpreter (launch : Launcher) : Tool := fun p =>
  let switches := p.arguments.takeWhile fun a => startsWith a.toList ['-'] && a ≠ "-"
  let rest := p.arguments.drop switches.length
  let letters := switches.flatMap String.toList
  let strict := letters.contains 'e'
  let settled := letters.contains 'u'
  if letters.contains 'c' then
    match rest with
    | source :: name :: arguments => execute launch p strict settled name arguments source.toList
    | [source] => execute launch p strict settled p.program [] source.toList
    | [] => p.refuses 2 "0: -c requires an argument"
  else
    match rest with
    | path :: arguments =>
      match readBytes p.tree p.cwd path with
      | .ok bytes => execute launch p strict settled path arguments (decodeLossy bytes)
      | .error e =>
        if e.isNotFound then
          p.refuses 2 ("0: cannot open " ++ path ++ ": " ++ Shell.openReason false e)
        else p.refuses 2 ("0: " ++ path ++ ": " ++ reason e)
    | [] => execute launch { p with input := [] } strict settled p.program [] (decodeLossy p.input)

end PromptRunner.Child.Script
