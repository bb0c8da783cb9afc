import PromptRunner.Execution
import PromptRunner.Proofs.Files.Components
import PromptRunner.Proofs.Files.Standing

/-!
# The directory of a script

Code that a script asks for runs in the directory that the script lies in. The directory is found in
the text of the script's path, which is joined to the path of the current directory: its last part
is dropped, and what is idle in front of that. All else stays as it is written, and so the way to
the script is the way to the directory and then the script's name, through the same links and up
from the same places.

Between the text and the files there are two limits of the system. A joined path may be too long
where the script's own is not, and then the directory cannot be entered. And a way may lead through
too many links that can be followed in two halves, so that a script can be opened from its directory
that cannot be opened from afar.
-/

namespace PromptRunner

open PromptRunner.Files PromptRunner.Files.Path PromptRunner.Text

variable {t : Tree} {cwd d l : Location} {follow : Bool} {current path name : String}
  {before front idle : List (List Char)}

/-! ## Its path -/

/-- The directory of a script is an absolute path of all components of the script's path but the
last. -/
theorem workingDirectory_spec (hcurrent : isAbsolute current = true)
    (h : (components path).getLast? = some (.name name)) :
    parent? (join current path) = some (workingDirectory current path) ∧
      isAbsolute (workingDirectory current path) = true ∧
      components (join current path) =
        components (workingDirectory current path) ++ [.name name] := by
  obtain ⟨outer, hparent, habsolute, hcomponents⟩ :=
    exists_parent_of_components (getLast?_components_join hcurrent h)
  rw [isAbsolute_join hcurrent path] at habsolute
  have hdirectory : workingDirectory current path = outer := by
    simp only [workingDirectory, hparent, isEmpty_of_isAbsolute habsolute, Bool.false_eq_true,
      if_false]
  rw [hdirectory]
  exact ⟨hparent, habsolute, hcomponents⟩

/-! ## The way to it

`front` are the pieces of the directory's path and `idle` are those that are dropped with the
name. -/

theorem steps_of_idle (h : ∀ piece ∈ idle, isIdle piece = true) :
    idle.map stepOf = List.replicate idle.length .stay := by
  refine List.eq_replicate_iff.2 ⟨List.length_map _, fun step hstep => ?_⟩
  obtain ⟨piece, hpiece, rfl⟩ := List.mem_map.1 hstep
  exact if_pos (h piece hpiece)

/-- What the directory's path leads to, the way in front of the name leads to. -/
theorem followSteps_front {directory : String} {loc : Location} {links : Nat}
    (hidle : ∀ piece ∈ idle, isIdle piece = true)
    (hfront : pieces directory.toList = front ∨ pieces directory.toList = front ++ [[]])
    (hd : t.node? d = some .directory) :
    followSteps t true links loc (steps directory) = .ok d ↔
      followSteps t true links loc ((front ++ idle).map stepOf) = .ok d := by
  have hstays : ∀ k, followSteps t true links loc (front.map stepOf) = .ok d ↔
      followSteps t true links loc (front.map stepOf ++ List.replicate k .stay) = .ok d :=
    fun k => ⟨fun h => followSteps_stays h hd k, followSteps_drop_stays⟩
  rw [List.map_append, steps_of_idle hidle, ← hstays, steps]
  rcases hfront with hsame | hslash
  · rw [hsame]
  · rw [hslash, List.map_append]
    exact (hstays 1).symm

theorem steps_of_pieces {text : String} (hname : Plain name)
    (htext : pieces text.toList = front ++ idle ++ [name.toList]) :
    steps text = (front ++ idle).map stepOf ++ [.into name] := by
  rw [steps, htext, List.map_append, List.map_singleton, hname.stepOf]

/-- The characters of a script's path are those of the directory's, of the name's, and of idle
parts. -/
theorem nul_mem_iff {directory : String} {text : List Char}
    (hidle : ∀ piece ∈ idle, isIdle piece = true)
    (hfront : pieces directory.toList = front ∨ pieces directory.toList = front ++ [[]])
    (htext : pieces text = front ++ idle ++ [name.toList]) :
    '\x00' ∈ text ↔ '\x00' ∈ directory.toList ∨ '\x00' ∈ name.toList := by
  have hslash : '\x00' ≠ '/' := by decide
  have hnone : ¬ ∃ piece ∈ idle, '\x00' ∈ piece := by
    rintro ⟨piece, hpiece, hnul⟩
    rcases show piece = [] ∨ piece = ['.'] by simpa [isIdle] using hidle piece hpiece with
      rfl | rfl
    · cases hnul
    · exact absurd hnul (by decide)
  have hdirectory : '\x00' ∈ directory.toList ↔ ∃ piece ∈ front, '\x00' ∈ piece := by
    rw [mem_cutAt hslash, ← pieces]
    rcases hfront with hsame | hslash
    · rw [hsame]
    · simp [hslash, or_and_right, exists_or]
  rw [mem_cutAt hslash, ← pieces, htext, hdirectory]
  simp only [List.mem_append, or_and_right, exists_or, hnone, or_false, List.mem_singleton,
    exists_eq_left]

/-- A script's path, joined to that of the current directory, is the path of its directory, idle
parts, and its name. -/
theorem exists_front (hlast : (components path).getLast? = some (.name name)) (hname : Plain name)
    (hpieces : pieces path.toList = before ++ [name.toList]) (cwd : Location) :
    ∃ front idle, pieces (join cwd.path path).toList = front ++ idle ++ [name.toList] ∧
      (∀ piece ∈ idle, isIdle piece = true) ∧
      (pieces (workingDirectory cwd.path path).toList = front ∨
        pieces (workingDirectory cwd.path path).toList = front ++ [[]]) := by
  obtain ⟨hparent, -, -⟩ := workingDirectory_spec (isAbsolute_path cwd) hlast
  obtain ⟨wider, hwider⟩ := exists_pieces_join cwd.path hpieces
  obtain ⟨front, idle, rfl, hidle, hfront⟩ := pieces_parent_of_name hparent hname hwider
  exact ⟨front, idle, hwider, hidle, hfront⟩

variable (hlast : (components path).getLast? = some (.name name)) (hname : Plain name)
  (hpieces : pieces path.toList = before ++ [name.toList]) (hstands : Standing t cwd)
include hlast hname hpieces hstands

/-- Whatever can be opened by a script's path can be opened by its name from its directory, unless
the path of the directory is too long. -/
theorem resolve_name_of_path (h : resolve t cwd follow path = .ok l)
    (hlength : byteLength (workingDirectory cwd.path path).toList < pathLimit) :
    ∃ d, changeDirectory t cwd (workingDirectory cwd.path path) = .ok d ∧
      resolve t d follow name = .ok l := by
  obtain ⟨-, habsolute, -⟩ := workingDirectory_spec (isAbsolute_path cwd) hlast
  obtain ⟨front, idle, htext, hidle, hfront⟩ := exists_front hlast hname hpieces cwd
  obtain ⟨hpath, hgo⟩ := resolve_iff.1 h
  rw [← hstands.followSteps_join, steps_of_pieces hname htext] at hgo
  obtain ⟨d, hd, left, hleft, hrest⟩ := followSteps_halves hgo
  have hnode := directory_of_followSteps hrest
  have hnul : '\x00' ∉ path.toList := by simpa using hpath.noNul
  rw [← nul_mem_join hstands.nul_notMem_path, nul_mem_iff hidle hfront htext, not_or] at hnul
  have hshort : byteLength name.toList ≤ nameLimit := by
    cases left <;> exact length_of_followWith hrest
  refine ⟨d, changeDirectory_iff.2 (stat_iff.2 ⟨resolve_iff.2 ⟨⟨?_, ?_, hlength⟩, ?_⟩, hnode⟩),
    resolve_iff.2 ⟨⟨?_, ?_, ?_⟩, ?_⟩⟩
  · simpa using hnul.1
  · exact isEmpty_of_isAbsolute habsolute
  · rw [startOf, if_pos habsolute]
    exact (followSteps_front hidle hfront hnode).2 hd
  · simpa using hnul.2
  · exact hname.isEmpty_eq_false
  · exact Nat.lt_of_le_of_lt hshort (by decide)
  · rw [startOf, hname.not_absolute, if_neg Bool.false_ne_true, hname.steps,
      ← Nat.add_sub_cancel' hleft]
    exact followSteps_more hrest _

/-- Whatever can be opened by a script's name from its directory can be opened by its path, unless
that is too long or leads through too many links. -/
theorem resolve_path_of_name
    (henter : changeDirectory t cwd (workingDirectory cwd.path path) = .ok d)
    (h : resolve t d follow name = .ok l) (hlength : byteLength path.toList < pathLimit) :
    resolve t cwd follow path = .ok l ∨
      resolve t cwd follow path = .error (.system .tooManyLinks) := by
  obtain ⟨-, habsolute, -⟩ := workingDirectory_spec (isAbsolute_path cwd) hlast
  obtain ⟨front, idle, htext, hidle, hfront⟩ := exists_front hlast hname hpieces cwd
  obtain ⟨hresolve, hnode⟩ := stat_iff.1 (changeDirectory_iff.1 henter)
  obtain ⟨hdirectory, hd⟩ := resolve_iff.1 hresolve
  obtain ⟨hadmissible, hrest⟩ := resolve_iff.1 h
  rw [startOf, if_pos habsolute, followSteps_front hidle hfront hnode] at hd
  rw [startOf, hname.not_absolute, if_neg Bool.false_ne_true, hname.steps] at hrest
  have hnul : '\x00' ∉ path.toList := by
    rw [← nul_mem_join hstands.nul_notMem_path, nul_mem_iff hidle hfront htext, not_or]
    exact ⟨by simpa using hdirectory.noNul, by simpa using hadmissible.noNul⟩
  have hempty : path.isEmpty = false := by
    refine String.isEmpty_eq_false_iff.2 ?_
    rintro rfl
    cases hlast
  have hwhole := followSteps_whole hd hrest
  rw [← steps_of_pieces hname htext, hstands.followSteps_join] at hwhole
  rw [resolve_of_admissible ⟨by simpa using hnul, hempty, hlength⟩]
  exact hwhole.imp (congrArg (Except.mapError IoError.system))
    (congrArg (Except.mapError IoError.system))

omit hlast hname hpieces hstands

/-! ## What it promises -/

/-- The directory of a script is found, whatever the script's path looks like. It is an absolute
path of the components in front of the script's name. From there the name leads to the same place
as the path does from here, through links and up from what they lead to, unless the directory
cannot be entered because its path is too long. And it leads to no place that the path does not lead
to, unless that is too long or leads through too many links. -/
theorem script_is_found_in_its_directory {path name : String}
    (h : (components path).getLast? = some (.name name)) :
    (∀ current, isAbsolute current = true →
      isAbsolute (workingDirectory current path) = true ∧ workingDirectory current path ≠ "" ∧
        components (workingDirectory current path) ++ [.name name] =
          components (join current path)) ∧
    (¬ ['/'] <:+ path.toList → ¬ ['/', '.'] <:+ path.toList →
      ∀ t cwd, Standing t cwd → ∀ follow l,
        let directory := workingDirectory cwd.path path
        (resolve t cwd follow path = .ok l → byteLength directory.toList < pathLimit →
          ∃ d, changeDirectory t cwd directory = .ok d ∧ resolve t d follow name = .ok l) ∧
        (∀ d, changeDirectory t cwd directory = .ok d → resolve t d follow name = .ok l →
          byteLength path.toList < pathLimit →
          resolve t cwd follow path ≠ .error (.system .tooManyLinks) →
          resolve t cwd follow path = .ok l)) := by
  refine ⟨fun current hcurrent => ?_, fun hslash hdot t cwd hstands follow l => ?_⟩
  · obtain ⟨-, habsolute, hcomponents⟩ := workingDirectory_spec hcurrent h
    refine ⟨habsolute, ?_, hcomponents.symm⟩
    intro hempty
    rw [hempty] at habsolute
    cases habsolute
  · obtain ⟨hname, before, hpieces⟩ := exists_last_piece h hslash hdot
    refine ⟨resolve_name_of_path h hname hpieces hstands, fun d hd hl hlength hlinks => ?_⟩
    exact (resolve_path_of_name h hname hpieces hstands hd hl hlength).resolve_right hlinks

/-- A place to work in, with a script in a directory that a link leads out of. -/
def linkedJobs : Tree :=
  ⟨[(["home"], .directory), (["jobs", "home"], .directory),
    (["far", "jobs", "home"], .link "/other/deep"), (["other"], .directory),
    (["deep", "other"], .directory), (["a.txt", "other"], .file ⟨[], 0, false⟩)]⟩

/-- Up from where a link leads to is not up from the link. -/
theorem script_is_found_through_a_link :
    let path := "jobs//far/./../a.txt"
    workingDirectory (Location.path ["home"]) path = "/home/jobs//far/./.." ∧
      resolve linkedJobs ["home"] true path = .ok ["a.txt", "other"] ∧
      ∃ d, changeDirectory linkedJobs ["home"] "/home/jobs//far/./.." = .ok d ∧
        resolve linkedJobs d true "a.txt" = .ok ["a.txt", "other"] := by
  have hstands : Standing linkedJobs ["home"] :=
    .inside .root ⟨⟨by decide, by decide, by decide⟩, by decide, by decide⟩ (by decide +kernel)
  have hdirectory :
      workingDirectory (Location.path ["home"]) "jobs//far/./../a.txt" = "/home/jobs//far/./.." := by
    decide +kernel
  have hpath : resolve linkedJobs ["home"] true "jobs//far/./../a.txt" = .ok ["a.txt", "other"] := by
    decide +kernel
  refine ⟨hdirectory, hpath, ?_⟩
  rw [← hdirectory]
  exact ((@script_is_found_in_its_directory "jobs//far/./../a.txt" "a.txt" (by decide +kernel)).2
    (by decide) (by decide) linkedJobs ["home"] hstands true ["a.txt", "other"]).1 hpath
    (by decide +kernel)

/-! ## Limits of the system -/

/-- A path to `d/e` from some place, with so many slashes more than it needs. -/
def stretched (front : List Char) (more : Nat) : String :=
  String.ofList (front ++ 'd' :: List.replicate more '/' ++ ['/', 'e'])

example : stretched [] 2 = "d///e" := by decide +kernel

/-- A place with a file in a directory of a directory. -/
def nestedFile : Tree :=
  ⟨[(["home"], .directory), (["d", "home"], .directory), (["e", "d", "home"], .directory),
    (["n", "e", "d", "home"], .file ⟨[], 0, false⟩)]⟩

theorem plain_n : Plain "n" := ⟨by decide, by decide, by decide⟩

theorem pieces_stretched (front : List Char) (more : Nat) :
    pieces (stretched front more).toList =
      pieces (front ++ 'd' :: List.replicate more '/') ++ [['e']] := by
  rw [stretched, String.toList_ofList, pieces, cutAt_append]
  rfl

theorem relative_stretched (more : Nat) : isAbsolute (stretched [] more) = false := by
  simp [stretched, isAbsolute]

theorem byteLength_stretched (front : List Char) (more : Nat) :
    byteLength (stretched front more).toList = byteLength front + more + 3 := by
  have hslashes : byteLength (List.replicate more '/') = more := by
    induction more with
    | zero => rfl
    | succ more ih => rw [List.replicate_succ', byteLength_append, ih]; rfl
  have htext : (stretched front more).toList =
      front ++ (['d'] ++ (List.replicate more '/' ++ ['/', 'e'])) := by
    simp [stretched]
  have hd : byteLength ['d'] = 1 := rfl
  have he : byteLength ['/', 'e'] = 2 := rfl
  rw [htext, byteLength_append, byteLength_append, byteLength_append, hslashes, hd, he]
  omega

theorem steps_stretched (more : Nat) :
    steps (stretched [] more) = .into "d" :: List.replicate more .stay ++ [.into "e"] := by
  have hfront : (pieces (['d'] ++ List.replicate more '/')).map stepOf =
      (pieces ['d']).map stepOf ++ List.replicate more .stay := steps_append_slashes
  rw [steps, pieces_stretched, List.map_append, List.nil_append, ← List.singleton_append, hfront]
  rfl

theorem admissible_stretched {more : Nat} (h : more + 5 < pathLimit) :
    Admissible (join (stretched [] more) "n") := by
  have htext := toList_join_name (pieces_stretched [] more) rfl plain_n
  refine ⟨?_, ?_, ?_⟩
  · rw [htext, stretched]
    simp
  · refine String.isEmpty_eq_false_iff.2 fun hempty => ?_
    rw [hempty] at htext
    simp at htext
  · have hn : byteLength ('/' :: "n".toList) = 2 := by decide
    rw [htext, byteLength_append, byteLength_stretched, hn]
    exact Nat.lt_of_le_of_lt (by simp [byteLength]) h

theorem resolve_stretched {more : Nat} (h : more + 5 < pathLimit) :
    resolve nestedFile ["home"] true (join (stretched [] more) "n") =
      .ok ["n", "e", "d", "home"] := by
  have hpath := admissible_stretched h
  have hempty : (stretched [] more).isEmpty = false := by
    simp [stretched]
  have hd : followSteps nestedFile true 0 ["home"] (.into "d" :: List.replicate more .stay) =
      .ok ["d", "home"] :=
    followSteps_stays (a := [.into "d"]) (by decide +kernel) (by decide +kernel) more
  have he : followSteps nestedFile true linkLimit ["d", "home"] [.into "e"] =
      .ok ["e", "d", "home"] := by
    decide +kernel
  have hdirectory : stat nestedFile ["home"] (stretched [] more) =
      .ok (["e", "d", "home"], .directory) := by
    refine stat_iff.2 ⟨resolve_iff.2 ⟨hpath.of_join plain_n hempty, ?_⟩, by decide +kernel⟩
    rw [startOf, relative_stretched, if_neg Bool.false_ne_true, steps_stretched,
      ← Nat.zero_add linkLimit]
    exact followSteps_append hd he
  refine resolve_true ?_ ((resolve_join plain_n).2
    ⟨hpath, by decide, _, reach_of_stat hdirectory, rfl⟩)
  have hfile : nestedFile.node? ["n", "e", "d", "home"] = some (.file ⟨[], 0, false⟩) := by
    decide +kernel
  rw [hfile]
  exact nofun

theorem workingDirectory_stretched (more : Nat) :
    workingDirectory (Location.path ["home"]) (join (stretched [] more) "n") =
      stretched "/home/".toList more := by
  have hjoin : join (Location.path ["home"]) (stretched [] more) =
      stretched "/home/".toList more := by
    have hhome : (Location.path ["home"]).toList = "/home".toList := by decide +kernel
    rw [← String.toList_inj, toList_join (relative_stretched more), hhome]
    simp [stretched]
  have hempty : (stretched "/home/".toList more).isEmpty = false := by
    refine isEmpty_of_isAbsolute ?_
    simp [stretched, isAbsolute]
  simp only [workingDirectory, ← join_assoc _ _ plain_n.not_absolute, hjoin,
    parent?_join (pieces_stretched _ _) rfl plain_n, hempty, Bool.false_eq_true, if_false]

/-- A directory with a link to itself, and another link that goes through it twenty times. -/
def roundabout : Tree :=
  ⟨[(["home"], .directory), (["l", "home"], .link "."),
    (["n", "home"], .link (String.join (List.replicate 20 "l/") ++ "f")),
    (["f", "home"], .file ⟨[], 0, false⟩)]⟩

/-- A path of 4095 bytes can be opened, and its directory cannot be entered. A path through
forty-two links cannot be opened, and its name can be from its directory. -/
theorem path_and_directory_have_their_own_limits :
    (let path := join (stretched [] 4090) "n"
     Standing nestedFile ["home"] ∧ (components path).getLast? = some (.name "n") ∧
      ¬ ['/'] <:+ path.toList ∧ ¬ ['/', '.'] <:+ path.toList ∧
      resolve nestedFile ["home"] true path = .ok ["n", "e", "d", "home"] ∧
      ∀ d, changeDirectory nestedFile ["home"]
        (workingDirectory (Location.path ["home"]) path) ≠ .ok d) ∧
    (let path := String.join (List.replicate 21 "l/") ++ "n"
     Standing roundabout ["home"] ∧ (components path).getLast? = some (.name "n") ∧
      ¬ ['/'] <:+ path.toList ∧ ¬ ['/', '.'] <:+ path.toList ∧
      resolve roundabout ["home"] true path = .error (.system .tooManyLinks) ∧
      changeDirectory roundabout ["home"] (workingDirectory (Location.path ["home"]) path) =
        .ok ["home"] ∧
      resolve roundabout ["home"] true "n" = .ok ["f", "home"]) := by
  have htext := toList_join_name (pieces_stretched [] 4090) rfl plain_n
  have hstands : ∀ t : Tree, t.node? ["home"] = some .directory → Standing t ["home"] :=
    fun t ht => .inside .root ⟨⟨by decide, by decide, by decide⟩, by decide, by decide⟩ ht
  constructor
  · refine ⟨hstands _ (by decide +kernel), ?_, ?_, ?_, resolve_stretched (by decide),
      fun d hd => ?_⟩
    · rw [components_join _ plain_n, List.getLast?_concat]
    · rw [htext, ← List.reverse_prefix]
      simp
    · rw [htext, ← List.reverse_prefix]
      simp
    · obtain ⟨hresolve, -⟩ := stat_iff.1 (changeDirectory_iff.1 hd)
      have hlength := (resolve_iff.1 hresolve).1.length_lt
      rw [workingDirectory_stretched, byteLength_stretched] at hlength
      exact absurd hlength (by decide +kernel)
  · exact ⟨hstands _ (by decide +kernel), by decide +kernel, by decide +kernel, by decide +kernel,
      by decide +kernel, by decide +kernel, by decide +kernel⟩

end PromptRunner
