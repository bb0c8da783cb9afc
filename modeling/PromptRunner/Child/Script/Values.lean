import PromptRunner.Child.Pattern
import PromptRunner.Child.Script.Shell

/-!
# Values in words

A word of a script becomes items: characters with whether they were quoted, places of quoted text
that count even if it is empty, and ends of words. Values that are put in bring ends with them where
words are parted. What the items make up is read in one of three ways: as words, as one text, or as
a pattern; and a word with a pattern in it stands for the paths it matches.
-/

namespace PromptRunner.Child.Script

open PromptRunner.Text PromptRunner.Files

namespace Shell

/-- A character of a value with whether it was quoted, the place of a quoted text, or the end of a
word. -/
inductive Item where
  | char (c : Char) (quoted : Bool)
  | text
  | stop
  deriving DecidableEq, Repr

def separators (s : Shell) : List Char := ((s.values.lookup "IFS").getD " \t\n").toList

/-- A character that parts words once, however many of them meet. -/
def isLoose (c : Char) : Bool := c = ' ' || c = '\t' || c = '\n'

/-- A value whose separators part words. Blanks only end a word; another separator ends a word even
if that is empty, which it is unless something was read since the separator before. -/
def parted (separators : List Char) : Bool → List Char → List Item
  | _, [] => []
  | something, c :: rest =>
    if !separators.contains c then .char c false :: parted separators true rest
    else if isLoose c then .stop :: parted separators something rest
    else if something then .stop :: parted separators false rest
    else .text :: .stop :: parted separators false rest

/-- A value put into a word; where words are parted, separators that were not quoted part them. -/
def valueItems (s : Shell) (parts quoted : Bool) (value : List Char) : List Item :=
  if parts && !quoted then parted s.separators false value else value.map (.char · quoted)

/-- A word with the directory of the user for a tilde at its start. -/
def withHome (s : Shell) (w : Word) : Word :=
  match w, s.values.lookup "HOME" with
  | .literal ['~'] false :: rest, some home =>
    match rest with
    | [] => [.literal home.toList true]
    | .literal ('/' :: _) false :: _ => .literal home.toList true :: rest
    | _ => w
  | _, _ => w

/-- The words that items make up, each character with whether it was quoted. -/
def words : List Item → List (List (Char × Bool))
  | items => (go items).filterMap id
where
  /-- Words, or nothing where two ends meet. -/
  go : List Item → List (Option (List (Char × Bool)))
    | [] => [none]
    | item :: rest =>
      match item, go rest with
      | .stop, ws => none :: ws
      | .text, none :: ws => some [] :: ws
      | .text, ws => ws
      | .char c quoted, w :: ws => some ((c, quoted) :: w.getD []) :: ws
      | .char c quoted, [] => [some [(c, quoted)]]

def oneText (items : List Item) : String :=
  String.ofList (items.filterMap fun i => match i with
    | .char c _ => some c
    | .text => none
    | .stop => some ' ')

def onePattern (items : List Item) : List NamePart :=
  let cs := items.filterMap fun i => match i with
    | .char c quoted => some (c, quoted)
    | _ => none
  namePattern (cs.length + 1) cs

def isPattern (w : List (Char × Bool)) : Bool :=
  w.any fun (c, quoted) => !quoted && (c = '*' || c = '?' || c = '[')

def pathParts : List (Char × Bool) → List (List (Char × Bool))
  | [] => [[]]
  | (c, quoted) :: rest =>
    if c = '/' then [] :: pathParts rest
    else
      match pathParts rest with
      | w :: ws => ((c, quoted) :: w) :: ws
      | [] => [[(c, quoted)]]

/-- The paths below a path that patterns match, in order. -/
def matchingPaths (s : Shell) : String → List (List (Char × Bool)) → List String
  | base, [] => if (stat s.tree s.cwd base).isOk then [base] else []
  | base, part :: rest =>
    let on (name : String) : List String :=
      matchingPaths s (base ++ name ++ (if rest.isEmpty then "" else "/")) rest
    if isPattern part then
      match stat s.tree s.cwd (if base.isEmpty then "." else base) with
      | .ok (loc, .directory) =>
        let pattern := namePattern (part.length + 1) part
        let hidden := part.head?.map (·.1) = some '.'
        ((s.tree.names loc).filter fun name =>
          (hidden || name.toList.head? ≠ some '.') && nameMatches pattern name.toList).flatMap on
      | _ => []
    else on (String.ofList (part.map (·.1)))

/-- What a word stands for: the paths it matches, or itself. -/
def matched (s : Shell) (w : List (Char × Bool)) : List String :=
  let plain := String.ofList (w.map (·.1))
  if isPattern w then
    match matchingPaths s "" (pathParts w) with
    | [] => [plain]
    | paths => paths
  else [plain]

/-- A text without the shortest or longest beginning that a pattern matches. -/
def withoutStart (pattern : List NamePart) (longest : Bool) (s : List Char) : List Char :=
  let cuts := List.range (s.length + 1)
  let cuts := if longest then cuts.reverse else cuts
  match cuts.find? fun n => nameMatches pattern (s.take n) with
  | some n => s.drop n
  | none => s

/-- A text without the shortest or longest end that a pattern matches. -/
def withoutEnd (pattern : List NamePart) (longest : Bool) (s : List Char) : List Char :=
  let cuts := List.range (s.length + 1)
  let cuts := if longest then cuts else cuts.reverse
  match cuts.find? fun n => nameMatches pattern (s.drop n) with
  | some n => s.take n
  | none => s

end Shell

end PromptRunner.Child.Script
