import PromptRunner.Child.Tool

/-!
# Conditions

A condition is a list of words: questions about one file or text, comparisons of two, and what
negation, conjunction, disjunction and brackets make of these. Few words are read by their number,
so that a word that looks like an operator can still be asked about.
-/

namespace PromptRunner.Child.Condition

open PromptRunner.Text PromptRunner.Files

/-- A question about one word, if there is such a question. -/
def ask? (p : Process) (question word : String) : Option Bool :=
  let found := stat p.tree p.cwd word
  match question with
  | "-n" => some (!word.isEmpty)
  | "-z" => some word.isEmpty
  | "-e" => some found.isOk
  | "-r" => some found.isOk
  | "-w" => some found.isOk
  | "-f" => some (isFile p.tree p.cwd word)
  | "-d" => some (isDirectory p.tree p.cwd word)
  | "-x" =>
    some (match found with
      | .ok (_, .file f) => f.executable
      | .ok _ => true
      | .error _ => false)
  | "-s" =>
    some (match found with
      | .ok (_, .file f) => !f.content.isEmpty
      | .ok _ => true
      | .error _ => false)
  | "-L" => isLink
  | "-h" => isLink
  | "-t" => some false
  | "-p" => some false
  | _ => none
where
  /-- Whether the word names a link. -/
  isLink : Option Bool :=
    some (match resolve p.tree p.cwd false word with
      | .ok loc =>
        match p.tree.node? loc with
        | some (.link _) => true
        | _ => false
      | .error _ => false)

/-- A comparison of two words, if there is such a comparison. -/
def compare? (left comparison right : String) : Option Bool :=
  let numbers (f : Int → Int → Bool) : Option Bool :=
    match left.toInt?, right.toInt? with
    | some a, some b => some (f a b)
    | _, _ => none
  match comparison with
  | "=" => some (left = right)
  | "==" => some (left = right)
  | "!=" => some (left ≠ right)
  | "-eq" => numbers fun a b => a = b
  | "-ne" => numbers fun a b => a ≠ b
  | "-lt" => numbers fun a b => a < b
  | "-le" => numbers fun a b => a ≤ b
  | "-gt" => numbers fun a b => b < a
  | "-ge" => numbers fun a b => b ≤ a
  | _ => none

mutual

/-- The first condition that no operator belongs to, and the words behind it. -/
def single? (p : Process) : Nat → List String → Option (Bool × List String)
  | 0, _ => none
  | _, [] => none
  | fuel + 1, "!" :: rest => (single? p fuel rest).map fun (b, rest) => (!b, rest)
  | fuel + 1, word :: rest =>
    let compared : Option (Bool × List String) :=
      match rest with
      | comparison :: right :: more => (compare? word comparison right).map fun b => (b, more)
      | _ => none
    let asked : Option (Bool × List String) :=
      match rest with
      | operand :: more => (ask? p word operand).map fun b => (b, more)
      | [] => none
    let bracketed : Option (Bool × List String) :=
      if word = "(" then
        match either? p fuel rest with
        | some (b, ")" :: more) => some (b, more)
        | _ => none
      else none
    ((compared.or asked).or bracketed).or (some (!word.isEmpty, rest))

def both? (p : Process) : Nat → List String → Option (Bool × List String)
  | 0, _ => none
  | fuel + 1, words =>
    match single? p fuel words with
    | some (a, "-a" :: rest) => (both? p fuel rest).map fun (b, rest) => (a && b, rest)
    | other => other

def either? (p : Process) : Nat → List String → Option (Bool × List String)
  | 0, _ => none
  | fuel + 1, words =>
    match both? p fuel words with
    | some (a, "-o" :: rest) => (either? p fuel rest).map fun (b, rest) => (a || b, rest)
    | other => other

end

/-- Whether a condition holds; no answer if it is none. -/
def holds? (p : Process) (words : List String) : Option Bool :=
  match words with
  | [] => some false
  | [word] => some (!word.isEmpty)
  | words =>
    match either? p (3 * words.length + 3) words with
    | some (b, []) => some b
    | _ => none

/-- The condition as a program; by one of its names it ends in a closing bracket. -/
def tool : Tool := fun p =>
  let words :=
    if p.program = "[" then
      if p.arguments.getLast? = some "]" then some p.arguments.dropLast else none
    else some p.arguments
  match words with
  | none => p.refuses 2 "missing ]"
  | some words =>
    match holds? p words with
    | some true => p.writes []
    | some false => { p.writes [] with ending := .exited 1 }
    | none => p.refuses 2 "unexpected operator"

end PromptRunner.Child.Condition
