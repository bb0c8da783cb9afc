import PromptRunner.Child.Tool
import PromptRunner.Child.Script.Shell

/-!
# Redirections

Redirections are put around a command by letting it write to descriptors of its own, and handing
what it wrote to where these descriptors lead. Redirections that stand for the rest of the script
change where its own descriptors lead.
-/

namespace PromptRunner.Child.Script

open PromptRunner.Text PromptRunner.Files

namespace Shell

/-- Where the descriptors of a command lead, and what it reads. -/
structure Wiring where
  targets : List (Nat × Target)
  input : Option Bytes

def Wiring.target (w : Wiring) (n : Nat) : Target := (w.targets.lookup n).getD (.descriptor n)

def Wiring.lead (w : Wiring) (n : Nat) (t : Target) : Wiring :=
  { w with targets := (n, t) :: w.targets }

/-- The script as a command with redirections sees it. -/
def enter (s : Shell) (w : Wiring) : Shell :=
  { s with written := [], input := w.input.getD s.input, standing := [] }

def deliver (w : Wiring) (s : Shell) (descriptor : Nat) (bytes : Bytes) : Shell :=
  match w.target descriptor with
  | .descriptor n => s.writes n bytes
  | .nowhere => s
  | .file path => s.adds path bytes

/-- The script after a command with redirections ended. -/
def leave (outer : Shell) (w : Wiring) (inner : Shell) : Shell :=
  inner.written.reverse.foldl (fun s (n, bytes) => deliver w s n bytes)
    { inner with
      written := outer.written
      standing := outer.standing
      input := if w.input.isSome then outer.input else inner.input }

/-- The script with redirections that stand for the rest of it. -/
def rewire (s : Shell) (w : Wiring) : Shell :=
  let onward : Target → Target
    | .descriptor n => s.target n
    | t => t
  { s with
    standing := (w.targets.map fun (n, t) => (n, onward t)) ++ s.standing
    input := w.input.getD s.input }

/-- A path that every system has, as a place to write to. -/
def device? (path : String) : Option Target :=
  match path with
  | "/dev/null" => some .nowhere
  | "/dev/stdout" => some (.descriptor 1)
  | "/dev/stderr" => some (.descriptor 2)
  | _ => none

/-- The cause for which a file cannot be opened, as scripts name it. -/
def openReason (created : Bool) : IoError → String
  | .system .noEntry => if created then "Directory nonexistent" else "No such file"
  | e => reason e

def openTarget (s : Shell) (w : Wiring) (n : Nat) (keeps : Bool) (path : String) :
    Except String (Shell × Wiring) :=
  match device? path with
  | some t => .ok (s, w.lead n (match t with | .descriptor m => w.target m | t => t))
  | none =>
    let before := match readBytes s.tree s.cwd path with
      | .ok bytes => if keeps then bytes else []
      | .error _ => []
    match writeFile s.tree s.cwd s.now path before with
    | .ok tree => .ok ({ s with tree := tree }, w.lead n (.file (Path.join s.cwd.path path)))
    | .error e => .error ("cannot create " ++ path ++ ": " ++ openReason true e)

def openSource (s : Shell) (w : Wiring) (path : String) : Except String (Shell × Wiring) :=
  if path = "/dev/null" then .ok (s, { w with input := some [] })
  else
    match readBytes s.tree s.cwd path with
    | .ok bytes => .ok (s, { w with input := some bytes })
    | .error e =>
      if (stat s.tree s.cwd path).isOk then .ok (s, { w with input := some [] })
      else .error ("cannot open " ++ path ++ ": " ++ openReason false e)

/-- One redirection, with its word as text. -/
def redirect (s : Shell) (w : Wiring) (n : Nat) (course : Course) (text : String) :
    Except String (Shell × Wiring) :=
  match course with
  | .read _ => openSource s w text
  | .write _ => openTarget s w n false text
  | .append _ => openTarget s w n true text
  | .text _ => .ok (s, { w with input := some (bytesOf text) })
  | .like _ =>
    if text = "-" then .ok (s, w.lead n .nowhere)
    else
      match text.toNat? with
      | some m => .ok (s, w.lead n (w.target m))
      | none => .error (text ++ ": bad fd number")

end Shell

end PromptRunner.Child.Script
