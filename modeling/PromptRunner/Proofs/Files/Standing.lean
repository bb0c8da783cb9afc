import PromptRunner.Proofs.Files.Present

/-!
# The path of the current directory

A process stands in a directory, and the system tells it the path of that directory: the names on
the way down to it from the root, with no link among them. So a relative path that is joined to the
path of the current directory is followed from the root exactly as the relative path is followed
from the current directory, with the same error if it leads nowhere (`resolve_join_path`). The one
thing that it costs is length: the system takes no path that is too long, and the joined path is
longer than the relative one.
-/

namespace PromptRunner.Files

open PromptRunner.Text

variable {t t' : Tree} {follow : Bool} {links : Nat} {cwd outer loc l : Location}
  {rest : List Step} {name path base : String}

/-! ## Where a process can stand -/

/-- A name that something in a directory can have. -/
structure Proper (name : String) : Prop extends Plain name where
  noNul : '\x00' ∉ name.toList
  short : byteLength name.toList ≤ nameLimit

/-- A location with a directory at every place on the way down to it. -/
inductive Standing (t : Tree) : Location → Prop
  | root : Standing t []
  | inside {name : String} {outer : Location} : Standing t outer → Proper name →
      t.node? (name :: outer) = some .directory → Standing t (name :: outer)

theorem Standing.directory (h : Standing t cwd) : t.node? cwd = some .directory := by
  cases h with
  | root => exact t.node?_root
  | inside _ _ hd => exact hd

theorem Standing.keeps (hk : Keeps t t') (h : Standing t cwd) : Standing t' cwd := by
  induction h with
  | root => exact .root
  | inside _ hname hd ih => exact .inside ih hname (hk.directory hd)

/-! ## The text of its path -/

theorem Plain.getLast?_toList (h : Plain name) :
    ∃ c, name.toList.getLast? = some c ∧ c ≠ '/' := by
  cases hlast : name.toList.getLast? with
  | none =>
    have hidle := h.notIdle
    rw [List.getLast?_eq_none_iff.1 hlast] at hidle
    cases hidle
  | some c =>
    refine ⟨c, rfl, ?_⟩
    rintro rfl
    exact h.noSlash (List.mem_of_getLast? hlast)

/-- The path of a place is the path of the directory that it lies in, and its name. -/
theorem path_cons (h : ∀ inner, outer.head? = some inner → Plain inner) (hname : Plain name) :
    Location.path (name :: outer) = Path.join outer.path name := by
  rw [Path.join, hname.not_absolute, if_neg Bool.false_ne_true]
  cases outer with
  | nil => rfl
  | cons inner outer =>
    have hpath : ∀ loc : Location, loc ≠ [] →
        loc.path = String.join (loc.reverse.map ("/" ++ ·)) := fun loc hloc => if_neg hloc
    obtain ⟨c, hc, hslash⟩ := (h inner rfl).getLast?_toList
    have hlast : (Location.path (inner :: outer)).toList.getLast? = some c := by
      rw [hpath _ (List.cons_ne_nil _ _), List.reverse_cons, List.map_append, String.join_append]
      simp [String.join_cons, List.getLast?_append, List.getLast?_cons, hc]
    rw [hlast]
    split
    · next hnone => cases hnone
    · next hslash' => exact absurd (Option.some.inj hslash') hslash
    · rw [hpath _ (List.cons_ne_nil _ _), hpath _ (List.cons_ne_nil _ _), List.reverse_cons,
        List.map_append, String.join_append, String.append_assoc]
      simp [String.join_cons]

theorem nul_mem_join (hnul : '\x00' ∉ base.toList) (path : String) :
    '\x00' ∈ (Path.join base path).toList ↔ '\x00' ∈ path.toList := by
  by_cases habsolute : Path.isAbsolute path = true
  · rw [join_absolute _ habsolute]
  rcases join_spec base (eq_false_of_ne_true habsolute) with
    ⟨-, -, hjoin⟩ | ⟨front, -, hjoin, hfront⟩
  · rw [hjoin]
  · have hfront : '\x00' ∉ front := by
      intro hmem
      rcases hfront with hslash | ⟨-, hsame⟩
      · exact hnul (hslash ▸ List.mem_append_left _ hmem)
      · exact hnul (hsame ▸ hmem)
    simp [hjoin, hfront]

namespace Standing

theorem path_cons (h : Standing t outer) (hname : Plain name) :
    Location.path (name :: outer) = Path.join outer.path name := by
  refine Files.path_cons (fun inner hinner => ?_) hname
  cases h with
  | root => cases hinner
  | inside _ hinside _ =>
    cases hinner
    exact hinside.toPlain

theorem nul_notMem_path (h : Standing t cwd) : '\x00' ∉ cwd.path.toList := by
  induction h with
  | root => decide
  | inside houter hname _ ih =>
    rw [houter.path_cons hname.toPlain, nul_mem_join ih]
    exact hname.noNul

/-! ## Where it leads -/

theorem leadIn_join (hname : Plain name) :
    leadIn (Path.join base name) = leadIn base ++ [.into name] := by
  obtain ⟨c, hc, hslash⟩ := hname.getLast?_toList
  have hlast : (Path.join base name).toList.getLast? = some c := by
    rcases join_spec base hname.not_absolute with ⟨-, -, hjoin⟩ | ⟨front, -, hjoin, -⟩
    · rw [hjoin, hc]
    · rw [hjoin, List.getLast?_append, List.getLast?_cons, hc]
      rfl
  have hlead : leadIn (Path.join base name) = Path.steps (Path.join base name) := by
    unfold leadIn
    split
    · next hnone => exact absurd (hlast.symm.trans hnone) (by simp)
    · next hslash' => exact absurd (Option.some.inj (hlast.symm.trans hslash')) hslash
    · rfl
  rw [hlead, steps_join hname]

theorem followSteps_into_directory (hd : t.node? loc = some .directory)
    (hnext : t.node? (name :: loc) = some .directory)
    (hlength : byteLength name.toList ≤ nameLimit) :
    followSteps t follow links loc (.into name :: rest) =
      followSteps t follow links (name :: loc) rest := by
  cases links <;> simp only [followSteps, followWith_into hd hlength, hnext]

/-- What stands behind the path of the current directory is followed from there. -/
theorem followSteps_path (h : Standing t cwd) :
    followSteps t follow links [] (leadIn cwd.path ++ rest) =
      followSteps t follow links cwd rest := by
  induction h generalizing rest with
  | root =>
    have hlead : leadIn (Location.path []) = [.stay] := by decide +kernel
    rw [hlead, List.singleton_append]
    cases links <;> exact followWith_stay t.node?_root
  | inside houter hname hd ih =>
    rw [houter.path_cons hname.toPlain, leadIn_join hname.toPlain, List.append_assoc, ih,
      List.singleton_append, followSteps_into_directory houter.directory hd hname.short]

/-- The path of the current directory stands for it in front of every path. -/
theorem followSteps_join (h : Standing t cwd) (path : String) :
    followSteps t follow links [] (Path.steps (Path.join cwd.path path)) =
      followSteps t follow links (startOf cwd path) (Path.steps path) := by
  cases habsolute : Path.isAbsolute path with
  | true =>
    rw [join_absolute _ habsolute, startOf, if_pos habsolute]
  | false =>
    rw [steps_join_relative habsolute, h.followSteps_path, startOf, habsolute,
      if_neg Bool.false_ne_true]

end Standing

/-! ## Joined to it -/

theorem byteLength_le_join (h : Path.isAbsolute path = false) (base : String) :
    byteLength path.toList ≤ byteLength (Path.join base path).toList := by
  rcases join_spec base h with ⟨-, -, hjoin⟩ | ⟨front, -, hjoin, -⟩
  · rw [hjoin]
  · have hbehind : front ++ '/' :: path.toList = (front ++ ['/']) ++ path.toList := by simp
    rw [hjoin, hbehind, byteLength_append]
    exact Nat.le_add_left _ _

theorem isEmpty_of_isAbsolute (h : Path.isAbsolute path = true) : path.isEmpty = false := by
  refine String.isEmpty_eq_false_iff.2 ?_
  rintro rfl
  cases h

/-- A relative path leads to the same place when it is joined to the path of the current directory,
unless that makes it too long. -/
theorem resolve_join_path (h : Standing t cwd) (hrelative : Path.isAbsolute path = false)
    (hpath : path.isEmpty = false)
    (hlength : byteLength (Path.join cwd.path path).toList < pathLimit) (cwd' : Location) :
    resolve t cwd' follow (Path.join cwd.path path) = resolve t cwd follow path := by
  have habsolute := isAbsolute_join (isAbsolute_path cwd) path
  have hlength' := Nat.lt_of_le_of_lt (byteLength_le_join hrelative cwd.path) hlength
  have hnul : (Path.join cwd.path path).toList.contains '\x00' = path.toList.contains '\x00' := by
    simp [nul_mem_join h.nul_notMem_path]
  simp only [resolve, hnul, isEmpty_of_isAbsolute habsolute, hpath, Nat.not_le.2 hlength,
    Nat.not_le.2 hlength']
  rw [startOf, if_pos habsolute, h.followSteps_join]

/-- What a relative path is joined behind. -/
theorem toList_join (h : Path.isAbsolute path = false) :
    (Path.join base path).toList =
      (if base.toList = [] ∨ base.toList.getLast? = some '/' then base.toList
        else base.toList ++ ['/']) ++ path.toList := by
  rw [Path.join, h, if_neg Bool.false_ne_true]
  split
  · next hnone => rw [List.getLast?_eq_none_iff.1 hnone, if_pos (.inl rfl), List.nil_append]
  · next hslash => rw [if_pos (.inr hslash), String.toList_append]
  · next c hc hlast =>
    have hne : base.toList ≠ [] := by
      rintro hnil
      rw [hnil] at hlast
      cases hlast
    have hslash : base.toList.getLast? ≠ some '/' := by
      rw [hlast]
      exact fun hc' => hc (Option.some.inj hc')
    rw [if_neg (not_or.2 ⟨hne, hslash⟩)]
    simp

/-- Joining to a joined path is joining what was joined to it. -/
theorem join_assoc (base directory : String) (h : Path.isAbsolute path = false) :
    Path.join (Path.join base directory) path = Path.join base (Path.join directory path) := by
  cases hdirectory : Path.isAbsolute directory with
  | true =>
    rw [join_absolute _ hdirectory]
    exact (join_absolute _ (isAbsolute_join hdirectory path)).symm
  | false =>
    have hjoined : Path.isAbsolute (Path.join directory path) = false := by
      rw [isAbsolute_join_relative directory h, hdirectory]
    rw [← String.toList_inj, toList_join h, toList_join hjoined, toList_join h,
      toList_join hdirectory, ← List.append_assoc]
    congr 1
    by_cases hnil : directory.toList = []
    · simp only [hnil, List.append_nil, true_or, if_true]
      split
      · rfl
      · simp
    · obtain ⟨front, c, hc⟩ := (List.eq_nil_or_concat directory.toList).resolve_left hnil
      by_cases hslash : c = '/' <;> simp [hc, hslash]

end PromptRunner.Files
