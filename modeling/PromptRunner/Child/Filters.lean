import PromptRunner.Child.Printf
import PromptRunner.Child.Stream
import PromptRunner.Child.Tool

/-!
# Tools that change streams

Each of these tools reads its operands, or its input if it has none, and writes something made of
it: lines chosen, counted, ordered, cut or edited. None of them changes a file, but for the one that
keeps a copy of what it hands on.
-/

namespace PromptRunner.Child.Filters

open PromptRunner.Text PromptRunner.Files

def onChars (f : List Char → List Char) (bytes : Bytes) : Bytes := unplain (f (plain bytes))

def onLines (f : List (List Char) → List (List Char)) : Bytes → Bytes :=
  onChars fun s => ofLines (f (streamLines s))

/-- Everything, as it is. -/
def cat : Tool := fun p => p.changes (Arguments.read [] p.arguments).operands id

/-- A number before which a dash stands, as the value of a letter. -/
def dashedNumber (arguments : List String) : List String :=
  match arguments with
  | first :: rest =>
    match first.toList with
    | '-' :: digits =>
      if !digits.isEmpty && digits.all Char.isDigit then "-n" :: String.ofList digits :: rest
      else arguments
    | _ => arguments
  | [] => []

/-- The lines of a stream, each with its line feed if it has one. -/
def wholeLines (s : List Char) : List (List Char) :=
  let ls := streamLines s
  if s.getLast? = some '\n' then ls.map (· ++ ['\n'])
  else ls.dropLast.map (· ++ ['\n']) ++ (ls.getLast?.map fun l => [l]).getD []

/-- The first lines, or the first bytes. -/
def head : Tool := fun p =>
  let a := Arguments.read ['n', 'c'] (dashedNumber p.arguments)
  p.changes a.operands fun bytes =>
    match a.number? 'c' with
    | some n => bytes.take n
    | none => onChars (fun s => (wholeLines s).take ((a.number? 'n').getD 10) |>.flatten) bytes

/-- The last lines, or the last bytes; a plus in front counts from the beginning. -/
def tail : Tool := fun p =>
  let a := Arguments.read ['n', 'c'] (dashedNumber p.arguments)
  let from_ (value : String) (length : Nat) : Nat :=
    match value.toList with
    | '+' :: digits => ((String.ofList digits).toNat?.getD 1) - 1
    | _ => length - (value.toNat?.getD 10)
  p.changes a.operands fun bytes =>
    match a.value? 'c' with
    | some value => bytes.drop (from_ value bytes.length)
    | none => onChars (fun s =>
        let ls := wholeLines s
        (ls.drop (from_ ((a.value? 'n').getD "10") ls.length)).flatten) bytes

def wordCount (s : List Char) : Nat :=
  (s.foldl (fun (count, inside) c =>
    if isBlank c then (count, false) else (if inside then count else count + 1, true))
    (0, false)).1

def padNumber (width n : Nat) : String :=
  let digits := toString n
  String.ofList (List.replicate (width - digits.length) ' ') ++ digits

/-- Lines, words and bytes counted. -/
def wc : Tool := fun p =>
  let a := Arguments.read [] p.arguments
  let chosen := ['l', 'w', 'm', 'c'].filter a.has
  let chosen := if chosen.isEmpty then ['l', 'w', 'c'] else chosen
  let count (bytes : Bytes) (c : Char) : Nat :=
    match c with
    | 'l' => bytes.count 10
    | 'w' => wordCount (plain bytes)
    | 'm' => (decodeLossy bytes).length
    | _ => bytes.length
  let names := if a.operands.isEmpty then [""] else a.operands
  let read := names.map fun name => (name, if name.isEmpty then .ok p.input else p.source name)
  let found := read.filterMap fun (name, r) =>
    match r with
    | .ok bytes => some (name, chosen.map (count bytes))
    | .error _ => none
  let total := found.foldl (fun sums (_, counts) => List.zipWith (· + ·) sums counts)
    (chosen.map fun _ => 0)
  let rows := if 1 < names.length then found ++ [("total", total)] else found
  let width :=
    if chosen.length = 1 && names.length = 1 then 1
    else if a.operands.isEmpty || a.operands.contains "-" then 7
    else (toString (read.foldl (fun sum (_, r) =>
      match r with
      | .ok bytes => sum + bytes.length
      | .error _ => sum) 0)).length
  let line (name : String) (counts : List Nat) : String :=
    " ".intercalate (counts.map (padNumber width)) ++ (if name.isEmpty then "" else " " ++ name) ++
      "\n"
  let complaints := read.filterMap fun (_, r) =>
    match r with
    | .ok _ => none
    | .error e => some e
  p.ends 1 p.tree (bytesOf (String.join (rows.map fun (name, counts) => line name counts)))
    complaints

/-- Characters translated, deleted, or made single. -/
def tr : Tool := fun p =>
  let a := Arguments.read [] p.arguments
  let set (s : String) : List Char := translationSet (s.length + 1) (plainOf s)
  match a.operands with
  | [] => p.refuses 1 "missing operand"
  | first :: more =>
    let listed := set first
    let source :=
      if a.has 'c' || a.has 'C' then
        ((List.range 256).map Char.ofNat).filter fun c => !listed.contains c
      else listed
    let target := set (more.headD "")
    let change (s : List Char) : List Char :=
      if a.has 'd' then
        let kept := s.filter fun c => !source.contains c
        if a.has 's' then squeeze target kept else kept
      else if a.has 's' then
        if more.isEmpty then squeeze source s else squeeze target (s.map (translated source target))
      else s.map (translated source target)
    p.writes (onChars change p.input)

def sed : Tool := fun p =>
  let a := Arguments.read ['e'] p.arguments
  let given := (a.values.filter (·.1 = 'e')).map (·.2)
  let (program, operands) :=
    if given.isEmpty then (a.operands.headD "", a.operands.drop 1)
    else ("\n".intercalate given, a.operands)
  match readEdits (a.has 'E' || a.has 'r') (program.length + 1) (plainOf program) with
  | none => p.refuses 1 ("-e expression #1, char " ++ toString program.length ++
      ": unknown command")
  | some edits =>
    p.changes operands (onChars fun s =>
      ofLinesAs s (editLines (a.has 'n') edits 1 (streamLines s)))

/-- Whether a line comes before another, by characters. -/
def lineLe (a b : List Char) : Bool := decide (String.ofList a ≤ String.ofList b)

def leadingNumber (s : List Char) : Int :=
  let s := s.dropWhile isBlank
  let value (digits : List Char) : Int :=
    (String.ofList (digits.takeWhile Char.isDigit)).toInt?.getD 0
  match s with
  | '-' :: digits => -(value digits)
  | digits => value digits

/-- Lines without those that are like the one before. -/
def withoutRepeats (ls : List (List Char)) : List (List Char) :=
  ls.foldr (fun l done => if done.head? = some l then done else l :: done) []

def sort : Tool := fun p =>
  let a := Arguments.read ['k', 't'] p.arguments
  p.changes a.operands (onLines fun ls =>
    let ordered := ls.mergeSort fun x y =>
      if a.has 'n' && leadingNumber x ≠ leadingNumber y then
        decide (leadingNumber x ≤ leadingNumber y)
      else lineLe x y
    let ordered := if a.has 'r' then ordered.reverse else ordered
    if a.has 'u' then withoutRepeats ordered else ordered)

/-- How often each line is repeated right behind itself. -/
def runsOf (ls : List (List Char)) : List (Nat × List Char) :=
  ls.foldr (fun l done =>
    match done with
    | (n, m) :: rest => if l = m then (n + 1, m) :: rest else (1, l) :: done
    | [] => [(1, l)]) []

/-- Lines without those that are like the one before. -/
def uniq : Tool := fun p =>
  let a := Arguments.read [] p.arguments
  p.changes a.operands (onLines fun ls =>
    let runs := runsOf ls
    let runs := if a.has 'd' then runs.filter fun (n, _) => 1 < n else runs
    runs.map fun (n, l) => if a.has 'c' then (padNumber 7 n ++ " ").toList ++ l else l)

def grep : Tool := fun p =>
  let a := Arguments.read ['e'] p.arguments
  let (source, names) :=
    match a.value? 'e' with
    | some source => (source, a.operands)
    | none => (a.operands.headD "", a.operands.drop 1)
  let fold (s : List Char) : List Char := if a.has 'i' then s.map Char.toLower else s
  let source := fold (plainOf source)
  let parts :=
    if a.has 'F' then source.map fun c => LinePart.one (.char c)
    else linePattern (a.has 'E') (source.length + 1) [] source
  let names := if names.isEmpty then ["-"] else names
  let read := names.map fun name => (name, p.source name)
  let chosen := read.filterMap fun (name, r) =>
    match r with
    | .ok bytes =>
      some (name, (streamLines (plain bytes)).zipIdx.filter fun (line, _) =>
        (search parts true (fold line)).isSome != a.has 'v')
    | .error _ => none
  let label (name : String) : List Char :=
    if 1 < names.length && !a.has 'h' then plainOf (name ++ ":") else []
  let out := chosen.flatMap fun (name, ls) =>
    if a.has 'c' then [label name ++ (toString ls.length).toList]
    else if a.has 'l' then (if ls.isEmpty then [] else [plainOf name])
    else ls.map fun (line, i) =>
      label name ++ (if a.has 'n' then (toString (i + 1) ++ ":").toList else []) ++ line
  let complaints := read.filterMap fun (_, r) =>
    match r with
    | .ok _ => none
    | .error e => some e
  let status := if chosen.any fun (_, ls) => !ls.isEmpty then 0 else 1
  ⟨.exited (if complaints.isEmpty then status else 2), p.tree,
    if a.has 'q' then [] else unplain (ofLines out), p.worded complaints⟩

/-- Numbers named by a list such as `1,3-5`. -/
def listed (s : String) (n : Nat) : Bool :=
  (cutAt ',' s.toList).any fun piece =>
    match cutAt '-' piece with
    | [one] => (String.ofList one).toNat? = some n
    | low :: high :: _ =>
      ((String.ofList low).toNat?.getD 1) ≤ n &&
        (match (String.ofList high).toNat? with
          | some high => n ≤ high
          | none => true)
    | [] => false

def cut : Tool := fun p =>
  let a := Arguments.read ['d', 'f', 'c', 'b'] p.arguments
  let pick {α : Type} (list : String) (items : List α) : List α :=
    (items.zipIdx.filter fun (_, i) => listed list (i + 1)).map (·.1)
  p.changes a.operands (onLines fun ls => ls.map fun line =>
    match a.value? 'f' with
    | some list =>
      let mark := ((a.value? 'd').bind fun d => d.toList.head?).getD '\t'
      if line.contains mark then joinWith mark (pick list (cutAt mark line)) else line
    | none => pick (((a.value? 'c').or (a.value? 'b')).getD "1-") line)

/-- Lines with their characters in the opposite order. -/
def rev : Tool := fun p =>
  p.changes (Arguments.read [] p.arguments).operands (onLines fun ls => ls.map List.reverse)

/-- What is read, handed on and kept in files. -/
def tee : Tool := fun p =>
  let a := Arguments.read [] p.arguments
  let keep (tree : Tree) (name : String) : Except String Tree :=
    let before : Bytes :=
      match readBytes tree p.cwd name with
      | .ok bytes => if a.has 'a' then bytes else []
      | .error _ => []
    match writeFile tree p.cwd p.now name (before ++ p.input) with
    | .ok tree => .ok tree
    | .error e => .error (name ++ ": " ++ reason e)
  { p.each keep a.operands with output := p.input }

def seq : Tool := fun p =>
  let numbers := p.arguments.filterMap String.toInt?
  let (low, step, high) : Int × Int × Int :=
    match numbers with
    | [high] => (1, 1, high)
    | [low, high] => (low, 1, high)
    | low :: step :: high :: _ => (low, step, high)
    | [] => (1, 1, 0)
  let count := if step = 0 then 0 else ((high - low) / step + 1).toNat
  let line (i : Nat) : String := toString (low + step * Int.ofNat i) ++ "\n"
  p.writes (bytesOf (String.join ((List.range count).map line)))

/-- Arguments written with one blank between them; no escapes. -/
def echo : Tool := fun p =>
  match p.arguments with
  | "-n" :: rest => p.writes (bytesOf (" ".intercalate rest))
  | all => p.writes (bytesOf (" ".intercalate all ++ "\n"))

def printf : Tool := fun p =>
  match if p.arguments.head? = some "--" then p.arguments.drop 1 else p.arguments with
  | [] => p.refuses 1 "missing operand"
  | format :: values => p.writes (formatAll (values.length + 1) format.toList values)

end PromptRunner.Child.Filters
