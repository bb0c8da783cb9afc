import PromptRunner.Child.System
import PromptRunner.CommandLine.Run

/-!
# The program

The files that a run may look at are read into a tree, the run is worked out on it, and what it
changed is written back. No network is there, and the programs that can be started are the tools of
the library; they find nothing to read.
-/

namespace PromptRunner.Main

open PromptRunner.Files PromptRunner.Text PromptRunner.CommandLine

def variableNames : List String :=
  ["HOME", "PATH", "TMPDIR", "XDG_CONFIG_HOME", "XDG_CACHE_HOME", "LLMEXEC_MODEL", "LLMEXEC_PYTHON",
    "LLMEXEC_CACHE_DIR", "LLMEXEC_TEMP_DIR", "GEMINI_API_KEY", "GOOGLE_API_KEY", "OPENAI_API_KEY",
    "OPENAI_BASE_URL", "ANTHROPIC_API_KEY", "OPENROUTER_API_KEY"]

def locationOf (cwd : Location) (path : String) : Location :=
  (Path.steps path).foldl (fun loc step =>
    match step with
    | .stay => loc
    | .up => loc.tail
    | .into name => name :: loc) (startOf cwd path)

/-- A location and those that it lies in, the outermost first. -/
def withOuter : Location → List Location
  | [] => []
  | name :: outer => withOuter outer ++ [name :: outer]

/-- The paths that are looked at before the settings are known. -/
def earlyPaths (cwd : Location) (env : Environment) (i : Invocation) : List String :=
  (cwd :: withOuter cwd).map (fun loc => Path.join loc.path ".env") ++
    [Settings.filePath env, i.script, Cache.localName] ++ i.output.toList

/-- The paths that are looked at when the settings are known. -/
def latePaths (t : Tree) (cwd : Location) (env : Environment) (i : Invocation) : List String :=
  let env := Variables.load t cwd env
  match Settings.load t cwd env, Request.resolve t cwd i.script with
  | .ok s, .ok r =>
    let directory := Cache.directory t cwd cwd.path s.cacheDirectory env
    [directory, Cache.filePath directory (modelOf i s) r.text,
      s.temporaryDirectory.getD (Runner.systemDirectory env)]
  | _, _ => []

def toolTree : Tree :=
  Child.toolNames.foldl (fun t name => t.put [name, "bin"] (.file ⟨[], 0, true⟩))
    (Tree.empty.put ["bin"] .directory)

def look (loc : Location) : IO (Option Node) := do
  let path := (← IO.currentDir) / loc.path
  try
    let about ← path.metadata
    match about.type with
    | .dir => return some .directory
    | _ =>
      let content ← IO.FS.readBinFile path
      let moment := about.modified.sec * 1000000000 + about.modified.nsec.toNat
      return some (.file ⟨content.toList, moment, false⟩)
  catch _ => return none

/-- A tree with what lies at some paths and above them. -/
def readAll (t : Tree) (cwd : Location) (paths : List String) : IO Tree :=
  (paths.flatMap fun path => withOuter (locationOf cwd path)).foldlM (fun t loc => do
    match t.node? loc with
    | some _ => return t
    | none =>
      match ← look loc with
      | some node => return t.put loc node
      | none => return t) t

/-- What a run changed, written back. -/
def writeBack (before after : Tree) : IO Unit := do
  for (loc, node) in after.entries.mergeSort fun a b => a.1.length ≤ b.1.length do
    if before.node? loc ≠ some node then
      match node with
      | .directory => IO.FS.createDirAll loc.path
      | .file f => IO.FS.writeBinFile loc.path (ByteArray.mk f.content.toArray)
      | .link _ => pure ()
  for (loc, node) in before.entries do
    if after.node? loc = none then
      match node with
      | .directory => IO.FS.removeDir loc.path
      | _ => IO.FS.removeFile loc.path

/-- The present moment: when a fresh file was made. -/
def present : IO Int :=
  IO.FS.withTempFile fun _ path => do
    let made := (← path.metadata).modified
    return made.sec * 1000000000 + made.nsec.toNat

def freshName : IO String := do
  let letters := "abcdefghijklmnopqrstuvwxyz0123456789".toList
  let picked ← (List.replicate 6 ()).mapM fun _ => do
    return (letters[← IO.rand 0 35]?).getD 'a'
  return String.ofList picked

def world (cwd : Location) : IO World := do
  let env ← variableNames.filterMapM fun name => do
    return (← IO.getEnv name).map fun value => (name, value)
  let names ← (List.replicate 8 ()).mapM fun _ => freshName
  return ⟨⟨cwd, ← present, names⟩, env, fun _ => .unreachable, Child.launch, []⟩

def treeFor (w : World) (arguments : List String) : IO Tree := do
  let cwd := w.surroundings.cwd
  match Invocation.read arguments with
  | .error _ => return toolTree
  | .ok i =>
    let t ← readAll toolTree cwd (earlyPaths cwd w.environment i)
    readAll t cwd (latePaths t cwd w.environment i)

end PromptRunner.Main

open PromptRunner PromptRunner.Files in
def main (arguments : List String) : IO UInt32 := do
  let w ← Main.world (Main.locationOf [] (← IO.currentDir).toString)
  let before ← Main.treeFor w arguments
  let r := CommandLine.run w before arguments
  Main.writeBack before r.tree
  (← IO.getStdout).write (ByteArray.mk r.output.toArray)
  (← IO.getStderr).write (ByteArray.mk r.errors.toArray)
  return UInt32.ofNat r.status
