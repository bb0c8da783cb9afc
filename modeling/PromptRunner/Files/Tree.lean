import PromptRunner.Text.Utf8

/-!
# A tree of files

A location names a place of the tree by the names that lead to it, the innermost first, so that
its tail is the directory it lies in and the empty location is the root. A tree says what lies at
each location: a regular file, a directory, or a link to a path.

All that is ever asked of a tree is `node?`, and each way to change one says what it does to that
view: `put` changes one location and `erase` empties one, and no other location notices.
-/

namespace PromptRunner.Files

open PromptRunner.Text

/-- The names that lead to a place, the innermost first. -/
abbrev Location := List String

/-- A regular file: what it holds, when it was last written (in billionths of a second), and
whether it may be run. -/
structure RegularFile where
  content : Bytes
  modified : Int
  executable : Bool
  deriving DecidableEq, Repr

/-- What lies at a location. -/
inductive Node where
  | file (f : RegularFile)
  | directory
  | link (target : String)
  deriving DecidableEq, Repr

/-- What lies where; the root is always a directory. -/
structure Tree where
  entries : List (Location × Node)
  deriving Repr

namespace Tree

def empty : Tree := ⟨[]⟩

def node? (t : Tree) (loc : Location) : Option Node :=
  if loc = [] then some .directory else t.entries.lookup loc

/-- The tree with a node at a location, in place of what was there. -/
def put (t : Tree) (loc : Location) (node : Node) : Tree :=
  ⟨(loc, node) :: t.entries.filter (·.1 ≠ loc)⟩

def erase (t : Tree) (loc : Location) : Tree := ⟨t.entries.filter (·.1 ≠ loc)⟩

theorem lookup_filter_self (entries : List (Location × Node)) (loc : Location) :
    (entries.filter (·.1 ≠ loc)).lookup loc = none := by
  induction entries with
  | nil => rfl
  | cons e entries ih =>
    rw [List.filter_cons]
    split
    · next h =>
      have hne : loc ≠ e.1 := fun he => by simp [he] at h
      rw [show e = (e.1, e.2) from rfl, List.lookup_cons, beq_eq_false_iff_ne.2 hne]
      exact ih
    · exact ih

theorem lookup_filter_ne (entries : List (Location × Node)) {loc other : Location}
    (h : other ≠ loc) : (entries.filter (·.1 ≠ loc)).lookup other = entries.lookup other := by
  induction entries with
  | nil => rfl
  | cons e entries ih =>
    rw [List.filter_cons]
    split
    · rw [show e = (e.1, e.2) from rfl, List.lookup_cons, List.lookup_cons, ih]
    · next he =>
      have he : e.1 = loc := by simpa using he
      rw [show e = (e.1, e.2) from rfl, List.lookup_cons, ih, he, beq_eq_false_iff_ne.2 h]

@[simp] theorem node?_root (t : Tree) : t.node? [] = some .directory := rfl

theorem node?_put_self (t : Tree) {loc : Location} (node : Node) (h : loc ≠ []) :
    (t.put loc node).node? loc = some node := by
  simp [node?, put, h]

theorem node?_put_ne (t : Tree) {loc other : Location} (node : Node) (h : other ≠ loc) :
    (t.put loc node).node? other = t.node? other := by
  simp only [node?, put]
  split
  · rfl
  · rw [List.lookup_cons, beq_eq_false_iff_ne.2 h]
    exact lookup_filter_ne t.entries h

theorem node?_erase_self (t : Tree) {loc : Location} (h : loc ≠ []) :
    (t.erase loc).node? loc = none := by
  simp only [node?, erase, h, ↓reduceIte]
  exact lookup_filter_self t.entries loc

theorem node?_erase_ne (t : Tree) {loc other : Location} (h : other ≠ loc) :
    (t.erase loc).node? other = t.node? other := by
  simp only [node?, erase]
  split
  · rfl
  · exact lookup_filter_ne t.entries h

def isDirectoryAt (t : Tree) (loc : Location) : Bool := t.node? loc = some .directory

/-- The names right below a location, in the order of their characters. -/
def names (t : Tree) (loc : Location) : List String :=
  let below := t.entries.filterMap fun (l, _) =>
    match l with
    | name :: outer => if outer = loc then some name else none
    | [] => none
  below.mergeSort fun a b => decide (a ≤ b)

end Tree

def Location.path (loc : Location) : String :=
  if loc = [] then "/" else String.join (loc.reverse.map ("/" ++ ·))

end PromptRunner.Files
