import PromptRunner.Child.System
import PromptRunner.Proofs.Execution
import PromptRunner.Proofs.Files.Standing

/-!
# Which interpreter runs

Two configured paths are used when code is run: the directory for the script, and the interpreter.
Both may be relative. The directory is looked at before the process moves to the directory that the
code is to run in, and the script's path is made absolute there, so that it means the same file
afterwards. The interpreter is looked for after the move. So its path is taken from the directory of
the script that asked for the code, and another program runs, or none, than the one that the path
names where the settings were read.

Which program a path names does not depend on the new script, since that may not be run itself
(`Gains.namesProgram_iff`).
-/

namespace PromptRunner

open PromptRunner.Files PromptRunner.Files.Path PromptRunner.Child PromptRunner.Text

namespace Files

variable {t t' : Tree} {cwd l place : Location} {path : String} {f : RegularFile}

/-- A path names a program: a file that may be run. -/
def NamesProgram (t : Tree) (cwd : Location) (path : String) (l : Location) : Prop :=
  ∃ f, stat t cwd path = .ok (l, .file f) ∧ f.executable = true

/-- A new file that may not be run changes nothing about programs. -/
theorem Gains.namesProgram_iff (h : Gains t t' place f) (hf : f.executable = false) :
    NamesProgram t' cwd path l ↔ NamesProgram t cwd path l := by
  by_cases hl : l = place
  · subst hl
    constructor
    · rintro ⟨g, hg, hrun⟩
      have hfile := (stat_iff.1 hg).2
      rw [h.file, Option.some.injEq, Node.file.injEq] at hfile
      rw [← hfile, hf] at hrun
      cases hrun
    · rintro ⟨g, hg, -⟩
      have hfree := (stat_iff.1 hg).2
      rw [h.free] at hfree
      cases hfree
  · exact exists_congr fun g => and_congr_left' (h.stat_file_iff hl)

/-- A relative path that is joined to the path of a directory names from everywhere the program that
it names from there. -/
theorem Standing.namesProgram_join_iff (h : Standing t cwd) (hpath : isAbsolute path = false)
    (hempty : path.isEmpty = false) (hlength : byteLength (join cwd.path path).toList < pathLimit)
    (cwd' : Location) :
    NamesProgram t cwd' (join cwd.path path) l ↔ NamesProgram t cwd path l := by
  simp only [NamesProgram, stat_iff, resolve_join_path h hpath hempty hlength]

end Files

namespace Child

variable {p : Process} {path : String} {l : Location}

/-- A process is started from a file. -/
def StartsFrom (p : Process) (l : Location) : Prop :=
  ∃ file, find p = .ok file ∧ file.location = l

theorem runnable_iff :
    (∃ file, runnable p path = .ok file ∧ file.location = l) ↔
      NamesProgram p.tree p.cwd path l := by
  unfold runnable NamesProgram
  constructor
  · rintro ⟨file, hfile, rfl⟩
    split at hfile
    · next loc f hstat =>
      split at hfile
      · next hrun =>
        cases hfile
        exact ⟨f, hstat, hrun⟩
      · cases hfile
    all_goals cases hfile
  · rintro ⟨f, hstat, hrun⟩
    simp only [hstat, hrun, if_true]
    exact ⟨_, rfl, rfl⟩

theorem isEmpty_of_contains {text : String} {c : Char} (h : text.contains c = true) :
    text.isEmpty = false := by
  refine String.isEmpty_eq_false_iff.2 ?_
  rintro rfl
  simp at h

/-- A program that is named by a path is not looked for anywhere else. -/
theorem startsFrom_iff (h : p.program.contains '/' = true) :
    StartsFrom p l ↔ NamesProgram p.tree p.cwd p.program l := by
  rw [← runnable_iff, StartsFrom, find, isEmpty_of_contains h, if_neg Bool.false_ne_true, if_pos h]

/-- Nothing is launched that is not found. -/
theorem launchWithin_of_not_startsFrom (h : ∀ l, ¬ StartsFrom p l) (depth : Nat) :
    ∃ e, launchWithin depth p = .error e := by
  cases depth with
  | zero => exact ⟨_, rfl⟩
  | succ depth =>
    simp only [launchWithin]
    split
    · exact ⟨_, rfl⟩
    · split
      · exact ⟨_, rfl⟩
      · next file hfile => exact absurd ⟨file, hfile, rfl⟩ (h file.location)

end Child

namespace Runner

variable {r : Runner} {s : Surroundings} {env : Environment} {input : Bytes} {t : Tree}
  {code directory script temporary : String} {p : Process} {l : Location}

/-- The script lies where the path of the directory for scripts leads before the process moves. -/
theorem script_in_temporary_directory (htemporary : r.temporaryDirectory = some temporary)
    (hrelative : isAbsolute temporary = false) (hstands : Standing t s.cwd)
    (h : r.child? s env input t code directory = .ok p) :
    ∃ middle place,
      let path := join temporary (scriptName.start ++ middle ++ scriptName.finish)
      p.arguments = [join s.cwd.path path] ∧ resolve p.tree s.cwd false path = .ok place ∧
        Gains t p.tree place ⟨bytesOf code, s.now, false⟩ := by
  obtain ⟨script, made, place, hscript, hgains, hplace, -, hp, -⟩ := child?_script h
  have harguments : p.arguments = [script] := congrArg Process.arguments hp
  rw [emptyScript, htemporary, Option.getD_some, createTemporary] at hscript
  obtain ⟨middle, rfl⟩ := path_of_createFresh hscript
  have hname : isAbsolute (scriptName.start ++ middle ++ scriptName.finish) = false := by
    simp [scriptName, isAbsolute]
  rw [join_assoc _ _ hname] at harguments hplace
  refine ⟨middle, place, harguments, ?_, hgains⟩
  have hjoined : isAbsolute (join temporary (scriptName.start ++ middle ++ scriptName.finish)) =
      false := by
    rw [isAbsolute_join_relative temporary hname, hrelative]
  rw [← resolve_join_path (hstands.keeps hgains.keeps) hjoined ?_ ?_ s.cwd, hplace]
  · refine String.isEmpty_eq_false_iff.2 fun hempty => ?_
    have htext := congrArg String.toList hempty
    rw [toList_join hname] at htext
    simp [scriptName] at htext
  · exact (resolve_iff.1 (hplace s.cwd)).1.length_lt

/-- A program that is named by a path is looked for from the directory that the process moved to. -/
theorem child?_startsFrom_iff (hslash : r.interpreter.contains '/' = true)
    (h : r.child? s env input t code directory = .ok p) :
    StartsFrom p l ↔ NamesProgram t p.cwd r.interpreter l := by
  obtain ⟨_, _, _, _, hgains, _, _, hp, _⟩ := child?_script h
  have hprogram : p.program = r.interpreter := congrArg Process.program hp
  rw [startsFrom_iff (hprogram ▸ hslash), hprogram, hgains.namesProgram_iff rfl]

/-- What comes of a run is what comes of launching its program. -/
theorem runFor_of_child?
    (h : r.child? s env input t code (workingDirectory s.cwd.path script) = .ok p)
    (launch : Launcher) :
    (r.runFor launch s env input t code script).result =
      match launch p with
      | .error e => .error (.notLaunched r.interpreter e)
      | .ok f => .ok f.ending.status := by
  obtain ⟨_, _, _, _, _, _, _, _, hrun⟩ := child?_script h
  rw [runFor, hrun]
  cases launch p <;> rfl

/-- Which of the configured paths mean the directory that the process starts in. The script is made
where the directory for scripts leads from there. The interpreter is the program that its path names
from the directory of the script that asked for the code, which the process has moved to; if it
names none there, the run fails, whatever the path names from the starting directory. So the program
that is named there is started if and only if the path names the same program from both. A path that
is made absolute before the move, as that of the script is, would name it from everywhere. -/
theorem configured_interpreter_starts_iff (htemporary : r.temporaryDirectory = some temporary)
    (hrelative : isAbsolute temporary = false) (hinterpreter : isAbsolute r.interpreter = false)
    (hslash : r.interpreter.contains '/' = true) (hstands : Standing t s.cwd)
    (h : r.child? s env input t code (workingDirectory s.cwd.path script) = .ok p) :
    (∃ middle place,
      let path := join temporary (scriptName.start ++ middle ++ scriptName.finish)
      p.arguments = [join s.cwd.path path] ∧ resolve p.tree s.cwd false path = .ok place ∧
        Gains t p.tree place ⟨bytesOf code, s.now, false⟩) ∧
    stat t s.cwd (workingDirectory s.cwd.path script) = .ok (p.cwd, .directory) ∧
    (∀ launch, (r.runFor launch s env input t code script).result =
      match launch p with
      | .error e => .error (.notLaunched r.interpreter e)
      | .ok f => .ok f.ending.status) ∧
    (∀ l, StartsFrom p l ↔ NamesProgram t p.cwd r.interpreter l) ∧
    ((∀ l, ¬ NamesProgram t p.cwd r.interpreter l) →
      ∃ e, (r.runFor Child.launch s env input t code script).result =
        .error (.notLaunched r.interpreter e)) ∧
    (byteLength (join s.cwd.path r.interpreter).toList < pathLimit → ∀ d l,
      NamesProgram t d (join s.cwd.path r.interpreter) l ↔ NamesProgram t s.cwd r.interpreter l) ∧
    ((∀ l, StartsFrom p l ↔ NamesProgram t s.cwd r.interpreter l) ↔
      ∀ l, NamesProgram t p.cwd r.interpreter l ↔ NamesProgram t s.cwd r.interpreter l) := by
  have hstarts : ∀ l, StartsFrom p l ↔ NamesProgram t p.cwd r.interpreter l :=
    fun l => child?_startsFrom_iff hslash h
  have hrun := runFor_of_child? h
  obtain ⟨_, _, _, _, _, _, hdirectory, _, _⟩ := child?_script h
  refine ⟨script_in_temporary_directory htemporary hrelative hstands h, hdirectory, hrun, hstarts,
    fun hnone => ?_, fun hlength d l => ?_, ?_⟩
  · obtain ⟨e, he⟩ := launchWithin_of_not_startsFrom (p := p)
      (fun l hl => hnone l ((hstarts l).1 hl)) launchDepth
    exact ⟨e, by rw [hrun, show Child.launch p = _ from he]⟩
  · exact hstands.namesProgram_join_iff hinterpreter (isEmpty_of_contains hslash) hlength d
  · simp only [hstarts]

/-- A place with an interpreter, and a directory for jobs that has another one. -/
def twoInterpreters : Tree :=
  ⟨[(["tools"], .directory), (["run", "tools"], .file ⟨bytesOf "#!/bin/sh\necho start\n", 0, true⟩),
    (["tmp"], .directory), (["job"], .directory), (["tools", "job"], .directory),
    (["run", "tools", "job"], .file ⟨bytesOf "#!/bin/sh\necho job\n", 0, true⟩)]⟩

/-- What is started there for a script among the jobs. -/
def jobChild : Process where
  program := "tools/run"
  arguments := ["/tmp/llmexec-a.py"]
  tree := twoInterpreters.put ["llmexec-a.py", "tmp"] (.file ⟨bytesOf "c", 0, false⟩)
  cwd := ["job"]
  environment := []
  input := []
  now := 0

theorem slash_in_interpreter : "tools/run".contains '/' = true := by simp

theorem child_of_job :
    child? ⟨"tools/run", some "tmp"⟩ ⟨[], 0, ["a"]⟩ [] [] twoInterpreters "c"
      (workingDirectory (Location.path []) "job/a.txt") = .ok jobChild := by rfl

/-- The script is made in the directory next to the tools, and the interpreter among the jobs is
started. -/
theorem interpreter_of_the_job_starts :
    StartsFrom jobChild ["run", "tools", "job"] ∧
      ∃ middle place,
        let path := join "tmp" (scriptName.start ++ middle ++ scriptName.finish)
        jobChild.arguments = [join "/" path] ∧ resolve jobChild.tree [] false path = .ok place ∧
          Gains twoInterpreters jobChild.tree place ⟨bytesOf "c", 0, false⟩ := by
  obtain ⟨hscript, -, -, hstarts, -⟩ :=
    configured_interpreter_starts_iff (r := ⟨"tools/run", some "tmp"⟩) rfl (by decide) (by decide)
      slash_in_interpreter Standing.root child_of_job
  exact ⟨(hstarts _).2 ⟨_, by rfl, rfl⟩, hscript⟩

/-- The interpreter that is started is not the one that the path names from the starting
directory. -/
theorem interpreter_of_the_start_is_passed_over :
    let r : Runner := ⟨"tools/run", some "tmp"⟩
    isAbsolute "tmp" = false ∧ isAbsolute r.interpreter = false ∧
      r.interpreter.contains '/' = true ∧ Standing twoInterpreters [] ∧
      child? r ⟨[], 0, ["a"]⟩ [] [] twoInterpreters "c"
        (workingDirectory (Location.path []) "job/a.txt") = .ok jobChild ∧
      NamesProgram twoInterpreters [] r.interpreter ["run", "tools"] ∧
      ¬ StartsFrom jobChild ["run", "tools"] ∧
      StartsFrom jobChild ["run", "tools", "job"] := by
  have hstarts : ∀ l, StartsFrom jobChild l ↔ NamesProgram jobChild.tree ["job"] "tools/run" l :=
    fun l => startsFrom_iff slash_in_interpreter
  refine ⟨by decide, by decide, slash_in_interpreter, .root, child_of_job, ⟨_, by rfl, rfl⟩, ?_,
    (hstarts _).2 ⟨_, by rfl, rfl⟩⟩
  rw [hstarts]
  rintro ⟨f, hstat, -⟩
  have hjob : ∃ f, stat jobChild.tree ["job"] "tools/run" = .ok (["run", "tools", "job"], f) :=
    ⟨_, by rfl⟩
  obtain ⟨g, hjob⟩ := hjob
  rw [hjob] at hstat
  cases hstat

end Runner

end PromptRunner
