import PromptRunner.Proofs.Files.Furnishing

/-!
# The components of a path

Two paths that are written differently may be the same path: slashes may be doubled or stand at the
end, and a single dot means something only where a relative path begins with it. What is left
without such writing are the components of a path, and two paths with the same components are one.

`dropIdle` takes away what is no component, from the end. So the parent of a path has the
components of the path but for the last (`components_parent`), however the path is written, and the
parent of a name joined to a directory has the components of the directory
(`components_of_parent_join`).
-/

namespace PromptRunner.Files

open PromptRunner.Text

/-- What a path consists of. The dot is the one that a relative path begins with. -/
inductive Component where
  | root
  | dot
  | up
  | name (name : String)
  deriving DecidableEq, Repr

namespace Path

/-- The component that a piece between slashes is, unless it is idle. -/
def component? (piece : List Char) : Option Component :=
  if isIdle piece then none
  else if piece = ['.', '.'] then some .up
  else some (.name (String.ofList piece))

/-- The components of a path that is cut into pieces. -/
def componentsOf (absolute : Bool) (pieces : List (List Char)) : List Component :=
  (if absolute then [.root] else if pieces.head? = some ['.'] then [.dot] else []) ++
    pieces.filterMap component?

def components (path : String) : List Component :=
  componentsOf (isAbsolute path) (pieces path.toList)

example : components "//a/./b/" = components "/a//b/." := by decide +kernel

example : components "./a/../b" = [.dot, .name "a", .up, .name "b"] := by decide +kernel

end Path

open Files.Path

variable {absolute : Bool} {parts before : List (List Char)} {piece last : List Char}
  {path outer directory name : String}

/-! ## Pieces -/

theorem component?_of_idle (h : isIdle piece = true) : component? piece = none := if_pos h

theorem Plain.component? (h : Plain name) : Path.component? name.toList = some (.name name) := by
  rw [Path.component?, h.notIdle, if_neg Bool.false_ne_true, if_neg h.notUp, String.ofList_toList]

/-- The empty piece of the root is no component. -/
theorem componentsOf_root (absolute : Bool) (parts : List (List Char)) :
    componentsOf absolute (rootPieces absolute ++ parts) = componentsOf absolute parts := by
  cases absolute <;> rfl

/-- A piece at the end that is no component. -/
theorem componentsOf_append_idle (h : isIdle piece = true)
    (hstart : absolute = true ∨ parts ≠ [] ∨ piece = []) :
    componentsOf absolute (parts ++ [piece]) = componentsOf absolute parts := by
  have hparts : (parts ++ [piece]).filterMap component? = parts.filterMap component? := by
    simp [component?_of_idle h]
  rw [componentsOf, componentsOf, hparts]
  rcases hstart with rfl | hne | rfl
  · rfl
  · obtain ⟨first, parts, rfl⟩ := List.exists_cons_of_ne_nil hne
    rfl
  · cases parts <;> rfl

/-- A piece at the end that is a component. -/
theorem componentsOf_append {part : Component} (h : component? piece = some part) :
    componentsOf absolute (parts ++ [piece]) = componentsOf absolute parts ++ [part] := by
  have hparts : (parts ++ [piece]).filterMap component? = parts.filterMap component? ++ [part] := by
    simp [h]
  rw [componentsOf, componentsOf, hparts, ← List.append_assoc]
  cases parts with
  | nil =>
    have hdot : piece ≠ ['.'] := by
      rintro rfl
      cases h
    simp [hdot]
  | cons first parts => rfl

theorem componentsOf_dropIdle (absolute : Bool) (parts : List (List Char)) :
    componentsOf absolute (dropIdle absolute parts).reverse = componentsOf absolute parts.reverse := by
  induction parts with
  | nil => rfl
  | cons piece before ih =>
    rw [dropIdle, List.reverse_cons]
    split
    · next hempty =>
      rw [ih, componentsOf_append_idle (by simp [isIdle, hempty]) (.inr (.inr hempty))]
    · split
      · next hdot =>
        simp only [Bool.and_eq_true, Bool.or_eq_true, decide_eq_true_eq] at hdot
        rw [ih, componentsOf_append_idle (by simp [isIdle, hdot.1])]
        rcases hdot.2 with habsolute | hne
        · exact .inl habsolute
        · exact .inr (.inl (by simpa using hne))
      · rw [List.reverse_cons]

/-- What is left at the end is a component, or the dot that a relative path consists of. -/
theorem componentsOf_last (h : dropIdle absolute parts = last :: before) :
    ∃ part, componentsOf absolute parts.reverse = componentsOf absolute before.reverse ++ [part] := by
  rw [← componentsOf_dropIdle, h, List.reverse_cons]
  induction parts with
  | nil => cases h
  | cons piece behind ih =>
    rw [dropIdle] at h
    split at h
    · exact ih h
    · split at h
      · exact ih h
      · next hempty hdot =>
        obtain ⟨rfl, rfl⟩ := List.cons.inj h
        by_cases hpiece : piece = ['.']
        · subst hpiece
          simp only [decide_true, Bool.true_and, Bool.or_eq_true, decide_eq_true_eq, not_or,
            not_not, Bool.not_eq_true] at hdot
          obtain ⟨rfl, rfl⟩ := hdot
          exact ⟨.dot, rfl⟩
        · have hidle : isIdle piece = false := by simp [isIdle, hempty, hpiece]
          obtain ⟨part, hpart⟩ : ∃ part, component? piece = some part := by
            rw [component?, hidle, if_neg Bool.false_ne_true]
            split
            · exact ⟨_, rfl⟩
            · exact ⟨_, rfl⟩
          exact ⟨part, componentsOf_append hpart⟩

/-! ## Paths -/

/-- Pieces that are put together are cut apart again, and nothing at all is one empty piece. -/
theorem componentsOf_joinWith (absolute : Bool) (h : ∀ piece ∈ parts, '/' ∉ piece) :
    componentsOf absolute (pieces (joinWith '/' parts)) = componentsOf absolute parts := by
  by_cases hne : parts = []
  · subst hne
    cases absolute <;> rfl
  · rw [pieces, cutAt_joinWith hne h]

/-- The parent of a path has its components but for the last. -/
theorem components_parent (h : parent? path = some outer) :
    ∃ part, components path = components outer ++ [part] := by
  obtain ⟨body, last, before, front, next, behind, hpath, hparts, hfront, hpieces, habsolute,
    houter⟩ := parent?_spec h
  obtain ⟨part, hpart⟩ := componentsOf_last hparts
  refine ⟨part, ?_⟩
  rw [components, components, hpath, houter, habsolute, componentsOf_root, componentsOf_root,
    componentsOf_joinWith _ (slash_notMem_of_pieces hpieces), hfront, componentsOf_dropIdle,
    ← hpart, List.reverse_reverse]

/-- A name is one component. -/
theorem Plain.components (h : Plain name) : Path.components name = [.name name] := by
  rw [Path.components, h.not_absolute, pieces, cutAt_of_notMem h.noSlash]
  exact @componentsOf_append false [] name.toList _ h.component?

/-- A name that is joined to a directory is one component more. -/
theorem components_join (directory : String) (h : Plain name) :
    components (join directory name) = components directory ++ [.name name] := by
  rcases join_spec directory h.not_absolute with ⟨hempty, -, hjoin⟩ | ⟨front, -, hjoin, hfront⟩
  · obtain rfl : directory = "" := String.toList_eq_nil_iff.1 hempty
    rw [hjoin, h.components]
    rfl
  · have hpieces : pieces (front ++ '/' :: name.toList) = pieces front ++ [name.toList] := by
      rw [pieces, cutAt_append, ← pieces, cutAt_of_notMem h.noSlash]
    rw [components, components, isAbsolute_join_relative directory h.not_absolute, hjoin, hpieces,
      componentsOf_append h.component?]
    rcases hfront with hslash | ⟨-, hsame⟩
    · have hempty : pieces (front ++ ['/']) = pieces front ++ [[]] := cutAt_append '/' front []
      rw [hslash, hempty, componentsOf_append_idle rfl (.inr (.inr rfl))]
    · rw [hsame]

/-- The parent of a name in a directory is the directory. -/
theorem components_of_parent_join (directory : String) (h : Plain name) :
    ∃ parent, parent? (join directory name) = some parent ∧
      components parent = components directory := by
  obtain ⟨parent, hparent⟩ := exists_parent_join directory
  have hparent := hparent name h
  obtain ⟨part, hpart⟩ := components_parent hparent
  rw [components_join directory h] at hpart
  exact ⟨parent, hparent, (List.append_inj' hpart rfl).1.symm⟩

/-! ## Paths that end in a name -/

/-- The components of a path behind the root, or behind the dot that it begins with. -/
theorem exists_components (path : String) :
    ∃ start, components path = start ++ (pieces path.toList).filterMap component? ∧
      ∀ name, .name name ∉ start := by
  refine ⟨_, rfl, fun name => ?_⟩
  split
  · simp
  · split <;> simp

theorem getLast?_components (h : (components path).getLast? = some (.name name)) :
    ((pieces path.toList).filterMap component?).getLast? = some (.name name) := by
  obtain ⟨start, hstart, hname⟩ := exists_components path
  rw [hstart, List.getLast?_append] at h
  cases hlast : ((pieces path.toList).filterMap component?).getLast? with
  | some part =>
    rw [hlast] at h
    exact h
  | none =>
    rw [hlast, Option.none_or] at h
    exact absurd (List.mem_of_getLast? h) (hname name)

/-- A path whose last component is a name has a parent, and that has the components before it. -/
theorem exists_parent_of_components (h : (components path).getLast? = some (.name name)) :
    ∃ outer, parent? path = some outer ∧ isAbsolute outer = isAbsolute path ∧
      components path = components outer ++ [.name name] := by
  cases hparent : parent? path with
  | none =>
    have hidle := isIdle_of_dropIdle (dropIdle_of_no_parent hparent)
    have hnone : (pieces path.toList).filterMap component? = [] := by
      refine List.filterMap_eq_nil_iff.2 fun piece hpiece => component?_of_idle ?_
      cases habsolute : isAbsolute path with
      | false =>
        rw [habsolute, if_neg Bool.false_ne_true] at hidle
        exact hidle piece (List.mem_reverse.2 hpiece)
      | true =>
        obtain ⟨body, hbody⟩ := List.head?_eq_some_iff.1 (isAbsolute_iff.1 habsolute)
        rw [habsolute, if_pos rfl, hbody, List.drop_one, List.tail_cons] at hidle
        rw [hbody, pieces_slash, List.mem_cons] at hpiece
        rcases hpiece with rfl | hpiece
        · rfl
        · exact hidle piece (List.mem_reverse.2 hpiece)
    have hlast := getLast?_components h
    rw [hnone] at hlast
    cases hlast
  | some outer =>
    obtain ⟨part, hpart⟩ := components_parent hparent
    obtain ⟨-, -, -, -, -, -, -, -, -, -, habsolute, -⟩ := parent?_spec hparent
    rw [hpart, List.getLast?_concat, Option.some.injEq] at h
    exact ⟨outer, rfl, habsolute, h ▸ hpart⟩

/-- A relative path that is joined to an absolute one is so many components more. -/
theorem components_join_relative {base : String} (hbase : isAbsolute base = true)
    (h : isAbsolute path = false) :
    components (join base path) =
      components base ++ (pieces path.toList).filterMap component? := by
  rw [components, components, isAbsolute_join_relative base h, hbase]
  rcases join_spec base h with ⟨hnil, -, -⟩ | ⟨front, -, hjoin, hfront⟩
  · rw [isAbsolute_iff, hnil] at hbase
    cases hbase
  · have hbefore : (pieces base.toList).filterMap component? =
        (pieces front).filterMap component? := by
      rcases hfront with hslash | ⟨-, hsame⟩
      · rw [hslash, pieces, cutAt_append, List.filterMap_append, ← pieces]
        exact List.append_nil _
      · rw [hsame]
    rw [componentsOf, componentsOf, hjoin, pieces, cutAt_append, List.filterMap_append, ← pieces,
      ← pieces, hbefore, if_pos rfl, if_pos rfl, List.append_assoc]

theorem getLast?_components_join {base : String} (hbase : isAbsolute base = true)
    (h : (components path).getLast? = some (.name name)) :
    (components (join base path)).getLast? = some (.name name) := by
  cases habsolute : isAbsolute path with
  | true =>
    rw [join_absolute _ habsolute, h]
  | false =>
    rw [components_join_relative hbase habsolute, List.getLast?_append, getLast?_components h]
    rfl

/-- A path whose last component is a name ends in the name, in a slash, or in a slash and a dot. -/
theorem exists_last_piece (h : (components path).getLast? = some (.name name))
    (hslash : ¬ ['/'] <:+ path.toList) (hdot : ¬ ['/', '.'] <:+ path.toList) :
    Plain name ∧ ∃ before, pieces path.toList = before ++ [name.toList] := by
  obtain ⟨before, last, hpieces⟩ : ∃ before last, pieces path.toList = before ++ [last] :=
    ⟨_, _, (List.dropLast_concat_getLast (cutAt_ne_nil '/' path.toList)).symm⟩
  have hlast := getLast?_components h
  have htext : before ≠ [] → path.toList = joinWith '/' before ++ '/' :: last := by
    intro hne
    rw [← joinWith_cutAt '/' path.toList, ← pieces, hpieces, joinWith_append hne (by simp)]
    rfl
  rw [hpieces, List.filterMap_append, List.getLast?_append] at hlast
  have hidle : isIdle last = false := by
    rw [Bool.eq_false_iff]
    intro hidle
    rw [show [last].filterMap component? = [] by simp [component?_of_idle hidle]] at hlast
    have hne : before ≠ [] := by
      rintro rfl
      cases hlast
    rcases show last = [] ∨ last = ['.'] by simpa [isIdle] using hidle with rfl | rfl
    · exact hslash ⟨_, (htext hne).symm⟩
    · exact hdot ⟨_, (htext hne).symm⟩
  have hup : last ≠ ['.', '.'] := by
    rintro rfl
    rw [show [['.', '.']].filterMap component? = [.up] from rfl] at hlast
    cases hlast
  have hcomponent : component? last = some (.name (String.ofList last)) := by
    rw [component?, hidle, if_neg Bool.false_ne_true, if_neg hup]
  rw [show [last].filterMap component? = [.name (String.ofList last)] by simp [hcomponent]] at hlast
  obtain rfl : String.ofList last = name := Component.name.inj (Option.some.inj hlast)
  rw [← String.toList_ofList (l := last)] at hidle hup
  refine ⟨⟨?_, hidle, hup⟩, before, by rw [hpieces, String.toList_ofList]⟩
  rw [String.toList_ofList]
  exact not_mem_of_mem_cutAt (s := path.toList) (by rw [← pieces, hpieces]; simp)

/-- The pieces of a path that ends in a name, and of its parent: what is idle in front of the name
goes with it. -/
theorem pieces_parent_of_name (h : parent? path = some outer) (hname : Plain name)
    (hpieces : pieces path.toList = before ++ [name.toList]) :
    ∃ front idle, before = front ++ idle ∧ (∀ piece ∈ idle, isIdle piece = true) ∧
      (pieces outer.toList = front ∨ pieces outer.toList = front ++ [[]]) := by
  obtain ⟨body, last, rest, front, next, behind, hpath, hparts, hfront, hbody, -, houter⟩ :=
    parent?_spec h
  -- the name is the last piece behind the root as well, and it is not idle
  obtain ⟨inner, hinner⟩ : ∃ inner, pieces body = inner ++ [name.toList] := by
    have hend := List.dropLast_concat_getLast (cutAt_ne_nil '/' body)
    rw [hpieces, pieces, ← hend, ← List.append_assoc] at hpath
    exact ⟨_, by rw [(List.append_inj' hpath rfl).2, pieces, hend]⟩
  have hbefore : before = rootPieces (isAbsolute path) ++ inner := by
    rw [hpieces, hinner, ← List.append_assoc] at hpath
    exact (List.append_inj' hpath rfl).1
  rw [hinner, List.reverse_append, List.reverse_singleton, List.singleton_append,
    dropIdle_of_not_idle hname.notIdle] at hparts
  obtain ⟨-, hrest⟩ := List.cons.inj hparts
  obtain ⟨idle, hdropped, hall⟩ := exists_dropIdle (isAbsolute path) rest
  have hsplit : inner = front ++ idle.reverse := by
    rw [hfront, ← List.reverse_append, ← hdropped, ← hrest, List.reverse_reverse]
  refine ⟨rootPieces (isAbsolute path) ++ front, idle.reverse, ?_, ?_, ?_⟩
  · rw [hbefore, hsplit, List.append_assoc]
  · exact fun piece hpiece => hall piece (List.mem_reverse.1 hpiece)
  · by_cases hnil : front = []
    · right
      rw [houter, hnil, List.append_nil]
      rfl
    · left
      rw [houter, pieces, cutAt_joinWith hnil (slash_notMem_of_pieces hbody)]

/-- A path that is joined to another one still ends in its name. -/
theorem exists_pieces_join (base : String) (h : pieces path.toList = before ++ [name.toList]) :
    ∃ wider, pieces (join base path).toList = wider ++ [name.toList] := by
  cases habsolute : isAbsolute path with
  | true => exact ⟨before, by rw [join_absolute _ habsolute, h]⟩
  | false =>
    rcases join_spec base habsolute with ⟨-, -, hjoin⟩ | ⟨front, -, hjoin, -⟩
    · exact ⟨before, by rw [hjoin, h]⟩
    · refine ⟨pieces front ++ before, ?_⟩
      rw [hjoin, pieces, cutAt_append, ← pieces, ← pieces, h, List.append_assoc]

/-- A name is joined behind a slash to a path that ends in a component. -/
theorem toList_join_name (hpieces : pieces directory.toList = before ++ [piece])
    (hpiece : isIdle piece = false) (h : Plain name) :
    (join directory name).toList = directory.toList ++ '/' :: name.toList := by
  have hslash : ∀ front, pieces directory.toList ≠ pieces front ++ [[]] := by
    intro front hslash
    rw [hpieces] at hslash
    obtain rfl : piece = [] := List.singleton_inj.1 (List.append_inj' hslash rfl).2
    cases hpiece
  rcases join_spec directory h.not_absolute with ⟨hnil, -, -⟩ | ⟨front, -, hjoin, hend | hsame⟩
  · obtain rfl : piece = [] := by
      rw [hnil] at hpieces
      exact (List.singleton_inj.1
        (List.append_inj' (show [] ++ [[]] = before ++ [piece] from hpieces) rfl).2).symm
    cases hpiece
  · rw [hend, pieces, cutAt_append] at hslash
    exact absurd rfl (hslash front)
  · rw [hjoin, hsame.2]

/-- The parent of a name that is joined to a path is that path, if it ends in a component. -/
theorem parent?_join (hpieces : pieces directory.toList = before ++ [piece])
    (hpiece : isIdle piece = false) (h : Plain name) :
    parent? (join directory name) = some directory := by
  -- the same for a path and for what stands behind the slash of the root
  have hparent : ∀ (absolute : Bool) (body : List Char) (before : List (List Char)),
      pieces body = before ++ [piece] →
      ∃ front, dropIdle absolute (pieces (body ++ '/' :: name.toList)).reverse =
        name.toList :: front ∧ joinWith '/' (dropIdle absolute front).reverse = body := by
    intro absolute body before hbody
    refine ⟨piece :: before.reverse, ?_, ?_⟩
    · rw [pieces, cutAt_append, ← pieces, hbody, cutAt_of_notMem h.noSlash]
      simp [dropIdle_of_not_idle h.notIdle]
    · rw [dropIdle_of_not_idle hpiece, List.reverse_cons, List.reverse_reverse, ← hbody]
      exact joinWith_cutAt '/' _
  rw [parent?, isAbsolute_join_relative directory h.not_absolute,
    toList_join_name hpieces hpiece h]
  cases habsolute : isAbsolute directory with
  | false =>
    obtain ⟨front, hfront, hback⟩ := hparent false _ before hpieces
    simp only [Bool.false_eq_true, if_false, hfront, hback, String.ofList_toList]
  | true =>
    obtain ⟨body, hbody⟩ := List.head?_eq_some_iff.1 (isAbsolute_iff.1 habsolute)
    rw [hbody, pieces_slash] at hpieces
    cases before with
    | nil => exact absurd (List.cons.inj hpieces).2 (cutAt_ne_nil '/' body)
    | cons first before =>
      obtain ⟨front, hfront, hback⟩ := hparent true body before (List.cons.inj hpieces).2
      simp only [if_true, hbody, List.cons_append, List.drop_one, List.tail_cons, hfront, hback]
      rw [← hbody, String.ofList_toList]

end PromptRunner.Files
