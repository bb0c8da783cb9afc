import PromptRunner.Child.Tool

/-!
# Tools that list and change files

Each of these tools works on its operands one after the other. What it cannot do with one of them it
complains about, and it goes on with the next.
-/

namespace PromptRunner.Child.FileTools

open PromptRunner.Text PromptRunner.Files

def shown (name : String) : String := "'" ++ name ++ "'"

/-- Whether a location lies in another one, or is it. -/
def isWithin (outer loc : Location) : Bool := outer.isSuffixOf loc

/-- The tree without a location and all that lies in it. -/
def eraseAll (t : Tree) (loc : Location) : Tree :=
  ⟨t.entries.filter fun (l, _) => !isWithin loc l⟩

/-- The tree with a copy of all that lies in one location put in another. -/
def copyAll (t : Tree) (source target : Location) : Tree :=
  (t.entries.filter fun (l, _) => isWithin source l).foldl
    (fun t (l, node) => t.put (l.take (l.length - source.length) ++ target) node) t

def listedNames (a : Arguments) (t : Tree) (loc : Location) : List String :=
  let all := t.names loc
  let names :=
    if a.has 'a' then "." :: ".." :: all
    else if a.has 'A' then all
    else all.filter fun name => !startsWith name.toList ['.']
  if a.has 'r' then names.reverse else names

def written (ls : List String) : String := String.join (ls.map (· ++ "\n"))

/-- What lies in directories, after the operands that are none. -/
def ls : Tool := fun p =>
  let a := Arguments.read [] p.arguments
  let operands := if a.operands.isEmpty then ["."] else a.operands
  let operands := operands.mergeSort fun x y => decide (x ≤ y)
  let look (name : String) : Except IoError (Location × Node) :=
    match stat p.tree p.cwd name with
    | .ok found => .ok found
    | .error e =>
      match resolve p.tree p.cwd false name with
      | .ok loc =>
        match p.tree.node? loc with
        | some node => .ok (loc, node)
        | none => .error e
      | .error e => .error e
  let read := operands.map fun name => (name, look name)
  let complaints := read.filterMap fun (name, r) =>
    match r with
    | .ok _ => none
    | .error e => some ("cannot access " ++ shown name ++ ": " ++ reason e)
  let plain := read.filterMap fun (name, r) =>
    match r with
    | .ok (_, node) => if node = .directory && !a.has 'd' then none else some name
    | .error _ => none
  let directories := read.filterMap fun (name, r) =>
    match r with
    | .ok (loc, .directory) => if a.has 'd' then none else some (name, listedNames a p.tree loc)
    | _ => none
  let blocks := directories.map fun (name, names) =>
    (if operands.length = 1 then "" else name ++ ":\n") ++ written names
  let blocks := if plain.isEmpty then blocks else written plain :: blocks
  p.ends 2 p.tree (bytesOf ("\n".intercalate blocks)) complaints

def mkdir : Tool := fun p =>
  let a := Arguments.read ['m'] p.arguments
  p.each (fun t name =>
    let complaint (e : IoError) : String :=
      "cannot create directory " ++ shown name ++ ": " ++ reason e
    if a.has 'p' then
      match createDirectories t p.cwd name with
      | .ok t => .ok t
      | .error (e, _) => .error (complaint e)
    else
      match createDirectory t p.cwd name with
      | .ok t => .ok t
      | .error e => .error (complaint e)) a.operands

/-- Files removed, and directories with all that lies in them if that is asked for. -/
def rm : Tool := fun p =>
  let a := Arguments.read [] p.arguments
  let deep := a.has 'r' || a.has 'R'
  p.each (fun t name =>
    let complaint (e : IoError) : String := "cannot remove " ++ shown name ++ ": " ++ reason e
    match resolve t p.cwd false name with
    | .error e => if a.has 'f' && e.isNotFound then .ok t else .error (complaint e)
    | .ok loc =>
      match t.node? loc with
      | none => if a.has 'f' then .ok t else .error (complaint (.system .noEntry))
      | some .directory =>
        if deep then .ok (eraseAll t loc) else .error (complaint (.system .isDirectory))
      | some _ => .ok (t.erase loc)) a.operands

def rmdir : Tool := fun p =>
  p.each (fun t name =>
    let complaint (text : String) : String := "failed to remove " ++ shown name ++ ": " ++ text
    match resolve t p.cwd false (Path.withoutSlashes name) with
    | .error e => .error (complaint (reason e))
    | .ok loc =>
      match t.node? loc with
      | none => .error (complaint (reason (.system .noEntry)))
      | some .directory =>
        if (t.names loc).isEmpty then .ok (t.erase loc)
        else .error (complaint "Directory not empty")
      | some _ => .error (complaint (reason (.system .notDirectory))))
    (Arguments.read [] p.arguments).operands

/-- Where something goes that is put at a path: into it if it is a directory. -/
def destination (t : Tree) (cwd : Location) (source target : String) : Except IoError Location :=
  match stat t cwd target with
  | .ok (loc, .directory) => .ok (Path.lastPiece (Path.withoutSlashes source) :: loc)
  | _ => resolve t cwd true target

/-- Operands before the last put where the last one says. -/
def placing (p : Process) (operands : List String)
    (place : Tree → String → Location → Except String Tree) : Finished :=
  match operands.reverse with
  | target :: source :: sources =>
    p.each (fun t name =>
      match destination t p.cwd name target with
      | .ok loc => place t name loc
      | .error e => .error ("cannot create " ++ shown target ++ ": " ++ reason e))
      (source :: sources).reverse
  | [only] => p.refuses 1 ("missing destination file operand after " ++ shown only)
  | [] => p.refuses 1 "missing file operand"

def mv : Tool := fun p =>
  placing p (Arguments.read [] p.arguments).operands fun t name target =>
    match resolve t p.cwd false (Path.withoutSlashes name) with
    | .error e => .error ("cannot stat " ++ shown name ++ ": " ++ reason e)
    | .ok loc =>
      match t.node? loc with
      | none => .error ("cannot stat " ++ shown name ++ ": " ++ reason (.system .noEntry))
      | some .directory =>
        if isWithin loc target then
          .error ("cannot move " ++ shown name ++ " to a subdirectory of itself, " ++
            shown (Location.path target))
        else .ok (eraseAll (copyAll t loc target) loc)
      | some node => .ok ((t.erase loc).put target node)

/-- Files copied, and directories with all that lies in them if that is asked for. -/
def cp : Tool := fun p =>
  let a := Arguments.read [] p.arguments
  placing p a.operands fun t name target =>
    match stat t p.cwd name with
    | .error e => .error ("cannot stat " ++ shown name ++ ": " ++ reason e)
    | .ok (loc, .directory) =>
      if a.has 'r' || a.has 'R' || a.has 'a' then .ok (copyAll t loc target)
      else .error ("-r not specified; omitting directory " ++ shown name)
    | .ok (_, .file f) =>
      match t.node? target with
      | some (.file old) =>
        .ok (t.put target (.file { old with content := f.content, modified := p.now }))
      | _ => .ok (t.put target (.file { f with modified := p.now }))
    | .ok _ => .ok t

/-- Files made if they are missing, or written now if they are not. -/
def touch : Tool := fun p =>
  p.each (fun t name =>
    match resolve t p.cwd true name with
    | .error e => .error ("cannot touch " ++ shown name ++ ": " ++ reason e)
    | .ok loc =>
      match t.node? loc with
      | none => .ok (t.put loc (.file ⟨[], p.now, false⟩))
      | some (.file f) => .ok (t.put loc (.file { f with modified := p.now }))
      | some _ => .ok t) (Arguments.read ['d', 't', 'r'] p.arguments).operands

def ln : Tool := fun p =>
  let a := Arguments.read [] p.arguments
  let operands := match a.operands with | [only] => [only, "."] | all => all
  placing p operands fun t name target =>
    let complaint (text : String) : String :=
      "failed to create " ++ (if a.has 's' then "symbolic" else "hard") ++ " link " ++
        shown (Path.lastPiece (Location.path target)) ++ ": " ++ text
    if (t.node? target).isSome && !a.has 'f' then .error (complaint (reason (.system .exists_)))
    else if a.has 's' then .ok (t.put target (.link name))
    else
      match stat t p.cwd name with
      | .ok (_, node) => .ok (t.put target node)
      | .error e => .error ("failed to access " ++ shown name ++ ": " ++ reason e)

/-- Whether a mode lets files be run; a mode that says nothing of it leaves it. -/
def runs? (mode : String) : Option Bool :=
  let cs := mode.toList
  if cs.all Char.isDigit then some (cs.any fun c => (c.toNat - 0x30) % 2 = 1)
  else if !cs.contains 'x' then none
  else some (!cs.contains '-')

def chmod : Tool := fun p =>
  match p.arguments with
  | [] => p.refuses 1 "missing operand"
  | mode :: names =>
    p.each (fun t name =>
      match stat t p.cwd name with
      | .error e => .error ("cannot access " ++ shown name ++ ": " ++ reason e)
      | .ok (loc, .file f) =>
        .ok (t.put loc (.file { f with executable := (runs? mode).getD f.executable }))
      | .ok _ => .ok t) names

def readlink : Tool := fun p =>
  let a := Arguments.read [] p.arguments
  let found := a.operands.filterMap fun name =>
    if a.has 'f' then
      match resolve p.tree p.cwd true name with
      | .ok loc => some loc.path
      | .error _ => none
    else
      match resolve p.tree p.cwd false name with
      | .ok loc =>
        match p.tree.node? loc with
        | some (.link target) => some target
        | _ => none
      | .error _ => none
  ⟨.exited (if found.length = a.operands.length then 0 else 1), p.tree, bytesOf (written found), []⟩

/-- A path without its last part, by its text. -/
def dirnameOf (path : String) : String :=
  let body := (Path.withoutSlashes path).toList.reverse
  match body.dropWhile (· ≠ '/') with
  | [] => if path.toList.head? = some '/' then "/" else "."
  | rest => Path.withoutSlashes (String.ofList rest.reverse)

/-- The last part of a path, by its text, without an ending that is not all of it. -/
def basenameOf (path ending : String) : String :=
  if path.toList ≠ [] && path.toList.all (· = '/') then "/"
  else
    let name := (Path.lastPiece (Path.withoutSlashes path)).toList
    let cut := ending.toList
    String.ofList
      (if cut.isSuffixOf name && cut ≠ name then name.take (name.length - cut.length) else name)

def dirname : Tool := fun p =>
  match (Arguments.read [] p.arguments).operands with
  | [] => p.refuses 1 "missing operand"
  | names => p.writes (bytesOf (written (names.map dirnameOf)))

def basename : Tool := fun p =>
  match (Arguments.read [] p.arguments).operands with
  | [] => p.refuses 1 "missing operand"
  | path :: ending => p.writes (bytesOf (written [basenameOf path (ending.headD "")]))

def pwd : Tool := fun p => p.writes (bytesOf (written [p.cwd.path]))

end PromptRunner.Child.FileTools
