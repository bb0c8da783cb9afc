import PromptRunner.Execution
import PromptRunner.Proofs.Files.Contents

/-!
# What running code leaves behind

Running code ends in one of three ways: no program is started, the program cannot be started, or it
ran. Which program is to be started, with which files around it, is settled before anything is
started (`child?`), so that the three ways can be told apart without looking at what starts it.

The script is the only file that running adds, and the path that the program gets is absolute. So
the path still means the same file when the current directory has changed, and that file can be
taken away at the end, unless the program has moved things about on the way to it (`Released`).
-/

namespace PromptRunner

open PromptRunner.Files PromptRunner.Child PromptRunner.Text

/-- Where code is run: in a directory, or in the directory of a script. -/
inductive Workplace where
  | directory (path : String)
  | script (path : String)
  deriving DecidableEq, Repr

def Workplace.path (current : String) : Workplace → String
  | .directory path => path
  | .script path => workingDirectory current path

namespace Runner

/-- Code run where it is to be run. -/
def runAt (r : Runner) (launch : Launcher) (s : Surroundings) (env : Environment) (input : Bytes)
    (t : Tree) (code : String) : Workplace → Execution
  | .directory path => r.runIn launch s env input t code path
  | .script path => r.runFor launch s env input t code path

/-- The script for some code: its path, and the tree that it lies in, empty. -/
def emptyScript (r : Runner) (s : Surroundings) (env : Environment) (t : Tree) :
    Except IoError (String × Tree) :=
  createTemporary t s.cwd s.now (r.temporaryDirectory.getD (systemDirectory env)) scriptName s.names

/-- The program to be started for some code, or why there is none. -/
def child? (r : Runner) (s : Surroundings) (env : Environment) (input : Bytes) (t : Tree)
    (code directory : String) : Except IoError Process :=
  match r.emptyScript s env t with
  | .error e => .error e
  | .ok (script, t) =>
    match writeFile t s.cwd s.now script (bytesOf code) with
    | .error e => .error e
    | .ok t =>
      match changeDirectory t s.cwd directory with
      | .error e => .error e
      | .ok cwd => .ok ⟨r.interpreter, [script], t, cwd, env, input, s.now⟩

/-- A script that can be taken away: its path still leads to its place and there is no directory
there, or it is gone already and its path leads to nothing. -/
def Released (t : Tree) (cwd : Location) (script : String) (place : Location) : Prop :=
  (resolve t cwd false script = .ok place ∧ t.node? place ≠ some .directory) ∨
    (t.node? place = none ∧ ∀ l, resolve t cwd false script = .ok l → t.node? l = none)

variable {r : Runner} {launch : Launcher} {s : Surroundings} {env : Environment} {input : Bytes}
  {t t' made : Tree} {code directory script : String} {cwd place : Location} {f : RegularFile}
  {p : Process} {e : IoError}

/-! ## The script -/

theorem removed_of_released (hroot : place ≠ []) (h : Released t cwd script place) :
    (removed t cwd script).node? place = none ∧
      ∀ other, other ≠ place → (removed t cwd script).node? other = t.node? other := by
  rcases h with ⟨hplace, hdirectory⟩ | ⟨hfree, hnothing⟩
  · cases hnode : t.node? place with
    | none =>
      have hremoved : removed t cwd script = t := by
        simp only [removed, removeFile, hplace, hnode]
      rw [hremoved]
      exact ⟨hnode, fun _ _ => rfl⟩
    | some node =>
      have hremoved : removed t cwd script = t.erase place := by
        cases node with
        | directory => exact absurd hnode hdirectory
        | file f => simp only [removed, removeFile, hplace, hnode]
        | link target => simp only [removed, removeFile, hplace, hnode]
      rw [hremoved]
      exact ⟨t.node?_erase_self hroot, fun _ hne => t.node?_erase_ne hne⟩
  · have hremoved : removed t cwd script = t := by
      rw [removed, removeFile]
      cases hresolve : resolve t cwd false script with
      | error e => rfl
      | ok l => simp only [hnothing l hresolve]
    rw [hremoved]
    exact ⟨hfree, fun _ _ => rfl⟩

/-- What a run adds before it starts anything is gone when the script is removed. -/
theorem removed_of_gains (h : Gains t t' place f) (hplace : resolve t' cwd false script = .ok place)
    (l : Location) : (removed t' cwd script).node? l = t.node? l := by
  have hreleased : Released t' cwd script place := .inl ⟨hplace, by rw [h.file]; nofun⟩
  obtain ⟨hgone, hrest⟩ := removed_of_released (ne_root_of_free h.free) hreleased
  by_cases hl : l = place
  · rw [hl, hgone, h.free]
  · rw [hrest l hl, h.same l hl]

theorem slash_after_script (h : r.emptyScript s env t = .ok (script, made)) :
    Path.withoutSlashes script = script ∧ Path.endsInSlash script = false := by
  obtain ⟨⟨front, hfront⟩, -⟩ := createTemporary_spec h
  have hlast : script.toList.getLast? = some 'y' := by
    rw [hfront]
    simp [scriptName]
  exact no_slash_after hlast (by decide)

/-- The empty script can be filled, and then it is the only file that is new. -/
theorem script_spec (h : r.emptyScript s env t = .ok (script, made)) (code : String) :
    ∃ filled place, writeFile made s.cwd s.now script (bytesOf code) = .ok filled ∧
      Gains t filled place ⟨bytesOf code, s.now, false⟩ ∧
      ∀ cwd, resolve filled cwd false script = .ok place := by
  obtain ⟨-, place, hplace, hgains⟩ := createTemporary_spec h
  obtain ⟨hpath, hslash⟩ := slash_after_script h
  have hwrite := writeFile_of_file s.now (bytesOf code) hpath hslash
    (resolve_keeps hgains.keeps (hplace s.cwd)) hgains.file
  have hfilled := hgains.put_again ⟨bytesOf code, s.now, false⟩
  exact ⟨_, place, hwrite, hfilled, fun cwd => resolve_keeps hfilled.keeps (hplace cwd)⟩

/-! ## The program that is started -/

theorem child?_ok_iff :
    (∃ p, r.child? s env input t code directory = .ok p) ↔
      (∃ made, r.emptyScript s env t = .ok made) ∧
        ∃ l, stat t s.cwd directory = .ok (l, .directory) := by
  cases hscript : r.emptyScript s env t with
  | error e => simp [child?, hscript]
  | ok made =>
    obtain ⟨script, made⟩ := made
    obtain ⟨filled, place, hwrite, hgains, -⟩ := script_spec hscript code
    simp only [child?, hscript, hwrite, ← hgains.stat_directory_iff, ← changeDirectory_iff]
    cases changeDirectory filled s.cwd directory <;> simp

/-- A program that is started gets a script that was made, and the tree that it finds has gained that
script only, with the code in it. -/
theorem child?_script (h : r.child? s env input t code directory = .ok p) :
    ∃ script made place, r.emptyScript s env t = .ok (script, made) ∧
      Gains t p.tree place ⟨bytesOf code, s.now, false⟩ ∧
      (∀ cwd, resolve p.tree cwd false script = .ok place) ∧
      stat t s.cwd directory = .ok (p.cwd, .directory) ∧
      p = ⟨r.interpreter, [script], p.tree, p.cwd, env, input, s.now⟩ ∧
      ∀ launch, r.runIn launch s env input t code directory =
        match launch p with
        | .error e => failed (.notLaunched r.interpreter e) (removed p.tree p.cwd script) p.cwd
        | .ok f =>
          ⟨.ok f.ending.status, removed f.tree p.cwd script, p.cwd, f.output, f.errors⟩ := by
  cases hscript : r.emptyScript s env t with
  | error e =>
    simp only [child?, hscript] at h
    cases h
  | ok made =>
    obtain ⟨script, made⟩ := made
    obtain ⟨filled, place, hwrite, hgains, hplace⟩ := script_spec hscript code
    simp only [child?, hscript, hwrite] at h
    split at h
    · cases h
    · next cwd hcwd =>
      cases h
      refine ⟨script, made, place, rfl, hgains, hplace, ?_, rfl, fun launch => ?_⟩
      · exact hgains.stat_directory_iff.1 (changeDirectory_iff.1 hcwd)
      · rw [emptyScript] at hscript
        simp only [runIn, hscript, hwrite, start, hcwd]
        cases launch ⟨r.interpreter, [script], filled, cwd, env, input, s.now⟩ <;> rfl

/-- What the program that is started finds: the code in its script, itself in the directory, and
all else as it was. -/
theorem child?_spec (h : r.child? s env input t code directory = .ok p) :
    ∃ script place f, Gains t p.tree place f ∧ f.content = bytesOf code ∧
      (∀ cwd, resolve p.tree cwd false script = .ok place) ∧
      stat t s.cwd directory = .ok (p.cwd, .directory) ∧
      p = ⟨r.interpreter, [script], p.tree, p.cwd, env, input, s.now⟩ ∧
      ∀ launch, r.runIn launch s env input t code directory =
        match launch p with
        | .error e => failed (.notLaunched r.interpreter e) (removed p.tree p.cwd script) p.cwd
        | .ok f =>
          ⟨.ok f.ending.status, removed f.tree p.cwd script, p.cwd, f.output, f.errors⟩ := by
  obtain ⟨script, -, place, -, hgains, hspec⟩ := child?_script h
  exact ⟨script, place, _, hgains, rfl, hspec⟩

/-- Where no program is started, nothing has changed in the end. -/
theorem child?_error (h : r.child? s env input t code directory = .error e) :
    ∃ t', (∀ l, t'.node? l = t.node? l) ∧
      ∀ launch, r.runIn launch s env input t code directory = failed (.io e) t' s.cwd := by
  cases hscript : r.emptyScript s env t with
  | error e' =>
    simp only [child?, hscript] at h
    cases h
    rw [emptyScript] at hscript
    refine ⟨t, fun _ => rfl, fun launch => ?_⟩
    simp only [runIn, hscript]
  | ok made =>
    obtain ⟨script, made⟩ := made
    obtain ⟨filled, place, hwrite, hgains, hplace⟩ := script_spec hscript code
    simp only [child?, hscript, hwrite] at h
    split at h
    · next e' hcwd =>
      cases h
      rw [emptyScript] at hscript
      refine ⟨removed filled s.cwd script, removed_of_gains hgains (hplace s.cwd), fun launch => ?_⟩
      simp only [runIn, hscript, hwrite, start, hcwd]
      rfl
    · cases h

theorem runAt_eq (w : Workplace) :
    r.runAt launch s env input t code w =
      r.runIn launch s env input t code (w.path s.cwd.path) := by
  cases w <;> rfl

/-! ## The whole run -/

/-- What running code promises. A program is started if and only if a script can be made and the
directory is there. If none is, that is an input or output failure, nothing moves and nothing has
changed. If one is, it finds the code in its script and itself in the directory; the process stays
there, whether the program could be started or not; the status is the program's, a signal counted
from 128; and in the end the script is gone and all else is as the program left it. -/
theorem code_is_run_and_cleaned_up (r : Runner) (s : Surroundings) (env : Environment)
    (input : Bytes) (t : Tree) (code : String) (w : Workplace) :
    let directory := w.path s.cwd.path
    let child := r.child? s env input t code directory
    ((∃ p, child = .ok p) ↔
      (∃ made, r.emptyScript s env t = .ok made) ∧
        ∃ l, stat t s.cwd directory = .ok (l, .directory)) ∧
    (∀ e, child = .error e → ∀ launch,
      let x := r.runAt launch s env input t code w
      x.result = .error (.io e) ∧ x.cwd = s.cwd ∧ x.output = [] ∧ x.errors = [] ∧
        ∀ l, x.tree.node? l = t.node? l) ∧
    (∀ p, child = .ok p → ∃ script place,
      p.program = r.interpreter ∧ p.arguments = [script] ∧ p.environment = env ∧ p.input = input ∧
      readBytes p.tree p.cwd script = .ok (bytesOf code) ∧
      stat t s.cwd directory = .ok (p.cwd, .directory) ∧
      t.node? place = none ∧ (∀ l, l ≠ place → p.tree.node? l = t.node? l) ∧
      ∀ launch,
        let x := r.runAt launch s env input t code w
        x.cwd = p.cwd ∧
        (∀ e, launch p = .error e →
          x.result = .error (.notLaunched r.interpreter e) ∧ ∀ l, x.tree.node? l = t.node? l) ∧
        (∀ f, launch p = .ok f →
          (x.result = .ok (match f.ending with
            | .exited status => status
            | .killed signal => 128 + signal)) ∧
          x.output = f.output ∧ x.errors = f.errors ∧
          (Released f.tree p.cwd script place →
            x.tree.node? place = none ∧
              ∀ l, l ≠ place → x.tree.node? l = f.tree.node? l))) := by
  refine ⟨child?_ok_iff, fun e herror launch => ?_, fun p hp => ?_⟩
  · obtain ⟨t', hsame, hrun⟩ := child?_error herror
    simp only [runAt_eq, hrun launch]
    exact ⟨rfl, rfl, rfl, rfl, hsame⟩
  · obtain ⟨script, place, f, hgains, hcontent, hplace, hdirectory, heq, hrun⟩ := child?_spec hp
    refine ⟨script, place, congrArg Process.program heq, congrArg Process.arguments heq,
      congrArg Process.environment heq, congrArg Process.input heq, ?_, hdirectory, hgains.free,
      hgains.same, fun launch => ?_⟩
    · rw [readBytes_of_file (hplace p.cwd) hgains.file, hcontent]
    simp only [runAt_eq, hrun launch]
    cases hlaunch : launch p with
    | error e =>
      refine ⟨rfl, fun e' he => ?_, nofun⟩
      cases he
      exact ⟨rfl, removed_of_gains hgains (hplace p.cwd)⟩
    | ok g =>
      refine ⟨rfl, nofun, fun g' hg => ?_⟩
      cases hg
      refine ⟨?_, rfl, rfl, removed_of_released (ne_root_of_free hgains.free)⟩
      rw [show (Execution.result _ : Except Failure Nat) = .ok g.ending.status from rfl]
      cases g.ending <;> rfl

/-- A directory for scripts next to one that code is to run in. -/
def workshop : Tree := ⟨[(["tmp"], .directory), (["job"], .directory)]⟩

/-- What is started for some code in the workshop. -/
def workshopChild : Process where
  program := "sh"
  arguments := ["/tmp/llmexec-a.py"]
  tree := workshop.put ["llmexec-a.py", "tmp"] (.file ⟨bytesOf "exit 1", 0, false⟩)
  cwd := ["job"]
  environment := []
  input := []
  now := 0

theorem child_of_workshop :
    child? ⟨"sh", some "tmp"⟩ ⟨[], 0, ["a"]⟩ [] [] workshop "exit 1"
      (workingDirectory "/" "job/a.txt") = .ok workshopChild := by rfl

theorem no_child_elsewhere :
    child? ⟨"sh", some "tmp"⟩ ⟨[], 0, ["a"]⟩ [] [] workshop "exit 1" "gone" =
      .error (.system .noEntry) := by rfl

/-- What a program leaves that takes its own script away, writes a file, and is killed. -/
def vanished : Finished where
  ending := .killed 9
  tree := workshop.put ["out"] (.file ⟨[1], 0, false⟩)
  output := []
  errors := []

/-- A program runs on a script in a relative directory and takes the script away itself; another
program cannot be started; and where there is no directory to run in, neither is started. -/
theorem script_of_workshop_vanishes :
    let r : Runner := ⟨"sh", some "tmp"⟩
    let s : Surroundings := ⟨[], 0, ["a"]⟩
    let x := r.runAt (fun _ => .ok vanished) s [] [] workshop "exit 1" (.script "job/a.txt")
    let y := r.runAt (fun _ => .error (.system .noEntry)) s [] [] workshop "exit 1"
      (.script "job/a.txt")
    let z := r.runAt (fun _ => .ok vanished) s [] [] workshop "exit 1" (.directory "gone")
    (x.result = .ok 137 ∧ x.cwd = ["job"] ∧ x.tree.node? ["llmexec-a.py", "tmp"] = none ∧
      x.tree.node? ["out"] = some (.file ⟨[1], 0, false⟩)) ∧
    (y.result = .error (.notLaunched "sh" (.system .noEntry)) ∧ y.cwd = ["job"] ∧
      y.tree.node? ["llmexec-a.py", "tmp"] = none) ∧
    (z.result = .error (.io (.system .noEntry)) ∧ z.cwd = [] ∧
      z.tree.node? ["llmexec-a.py", "tmp"] = none) := by
  intro r s x y z
  obtain ⟨-, -, hstarted⟩ :=
    code_is_run_and_cleaned_up r s [] [] workshop "exit 1" (.script "job/a.txt")
  obtain ⟨-, hrefused, -⟩ :=
    code_is_run_and_cleaned_up r s [] [] workshop "exit 1" (.directory "gone")
  obtain ⟨script, place, -, hscript, -, -, -, -, -, hsame, hrun⟩ :=
    hstarted workshopChild child_of_workshop
  have hscript : "/tmp/llmexec-a.py" = script := List.head_eq_of_cons_eq hscript
  have hplace : ["llmexec-a.py", "tmp"] = place := by
    refine Decidable.byContradiction fun hne => ?_
    exact absurd (hsame _ hne) (by decide +kernel)
  subst hscript hplace
  obtain ⟨hcwd, -, hfinished⟩ := hrun fun _ => .ok vanished
  obtain ⟨hresult, -, -, hclean⟩ := hfinished vanished rfl
  obtain ⟨hgone, hrest⟩ := hclean (.inl ⟨by rfl, by decide +kernel⟩)
  obtain ⟨hcwd', hfailed, -⟩ := hrun fun _ => .error (.system .noEntry)
  obtain ⟨hresult', hsame'⟩ := hfailed _ rfl
  obtain ⟨hnone, hstay, -, -, hkept⟩ := hrefused _ no_child_elsewhere fun _ => .ok vanished
  refine ⟨⟨hresult, hcwd, hgone, ?_⟩, ⟨hresult', hcwd', ?_⟩, ⟨hnone, hstay, ?_⟩⟩
  · rw [hrest ["out"] (by decide)]
    rfl
  · rw [hsame']
    rfl
  · rw [hkept]
    rfl

end Runner

end PromptRunner
