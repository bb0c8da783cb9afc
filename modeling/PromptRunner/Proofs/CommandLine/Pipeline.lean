import Mathlib.Data.List.Basic
import PromptRunner.Proofs.Cache.Footprint
import PromptRunner.Proofs.CommandLine.Stages

/-!
# No stage before its time

The stages of a run build on each other: the request, the directory, the answer, the code, the file
for the code, the program. A stage that fails ends the run with status one, and nothing of a later
stage has happened then: what starts programs has not been asked, and no place has changed that is
not one of the cache. Showing the code ends a run as well, with status zero.

The file for the code is written before the program is started, and the program finds the same code
there as in its script.
-/

namespace PromptRunner.CommandLine

open PromptRunner.Files PromptRunner.Text PromptRunner.Child

variable {w : World} {t made tree saved : Tree} {arguments : List String} {i : Invocation}
  {s : Settings} {r : Request} {p : Progress} {code : String} {l : Location}

/-! ## What a run leaves alone -/

/-- Nothing is started: the run is the same for everything that starts programs. -/
def Idle (w : World) (t : Tree) (arguments : List String) : Prop :=
  ∀ launch, run (w.starting launch) t arguments = run w t arguments

/-- A place of the cache: one that the path of the cache directory or of the answer in it may name,
or that they may lie in. -/
def OfCache (w : World) (t : Tree) (i : Invocation) (s : Settings) (r : Request) (l : Location) :
    Prop :=
  MayMake t w.surroundings.cwd (cacheOf w t s) l ∨
    MayMake t w.surroundings.cwd
      (Cache.filePath (cacheOf w t s) (modelOf i s) r.text) l

/-- A run changes places of its cache only. -/
def Untouched (w : World) (t : Tree) (i : Invocation) (after : Tree) : Prop :=
  ∀ l, (∀ s r, Reads w t i s r → ¬ OfCache w t i s r l) → after.node? l = t.node? l

theorem Untouched.refl (w : World) (t : Tree) (i : Invocation) : Untouched w t i t :=
  fun _ _ => rfl

theorem untouched_of_frame (hreads : Reads w t i s r)
    (h : ∀ l, tree.node? l = t.node? l ∨ OfCache w t i s r l) : Untouched w t i tree := by
  intro l hl
  exact (h l).resolve_right (hl s r hreads)

theorem untouched_of_directory (hreads : Reads w t i s r)
    (h : madeSoFar (Cache.ensureDirectory t w.surroundings.cwd (cacheOf w t s)) = made) :
    Untouched w t i made := by
  refine untouched_of_frame hreads fun l => ?_
  rw [← h]
  exact (createDirectories_frame t w.surroundings.cwd (cacheOf w t s) l).imp_right .inl

theorem untouched_of_outcome (h : Ready w t i s r made) :
    Untouched w t i (outcomeOf w t i s r made).tree := by
  refine untouched_of_frame h.toReads fun l => ?_
  have hgrows : Grows t (madeSoFar (createDirectories t w.surroundings.cwd (cacheOf w t s))) :=
    grows_of_createDirectories
  have hmade := createDirectories_frame t w.surroundings.cwd (cacheOf w t s) l
  have hdirectory := h.directory
  rw [Cache.ensureDirectory] at hdirectory
  rw [hdirectory, madeSoFar] at hgrows hmade
  rcases Generation.generate_frame ((Provider.ofSettings s (modelOf i s)).chat w.network) made l
    with hsame | hof
  · rw [outcomeOf, hsame]
    exact hmade.imp_right .inl
  · exact .inr (.inr (hof.of_noNewLinks hgrows.noNewLinks))

/-! ## Runs that come to no code -/

/-- A run that comes to code: with its settings and its request, and with the files as they are
when it has its answer. -/
def Produces (w : World) (t : Tree) (i : Invocation) (s : Settings) (r : Request) (tree : Tree)
    (code : String) : Prop :=
  ∃ made text, Ready w t i s r made ∧ (outcomeOf w t i s r made).result = .ok text ∧
    (outcomeOf w t i s r made).tree = tree ∧ Answer.extractCode text = code

theorem idle_of_eq {x : Report} (h : ∀ launch, run (w.starting launch) t arguments = x) :
    run w t arguments = x ∧ Idle w t arguments :=
  ⟨h w.launch, fun launch => (h launch).trans (h w.launch).symm⟩

/-- A run that fails before it starts anything. -/
theorem stopped_of_fails {account : String}
    (h : ∀ launch, run (w.starting launch) t arguments = p.fails (w.starting launch) account)
    (hsame : Untouched w t i p.tree) :
    (run w t arguments).status = 1 ∧ Idle w t arguments ∧
      Untouched w t i (run w t arguments).tree := by
  have hfails : ∀ launch, run (w.starting launch) t arguments = p.fails w account :=
    fun launch => (h launch).trans (fails_starting p account)
  obtain ⟨hrun, hidle⟩ := idle_of_eq hfails
  rw [hrun]
  exact ⟨rfl, hidle, hsame⟩

theorem run_without_code (hread : Invocation.read arguments = .ok i)
    (h : ¬ ∃ s r tree code, Produces w t i s r tree code) :
    (run w t arguments).status = 1 ∧ Idle w t arguments ∧
      Untouched w t i (run w t arguments).tree := by
  rcases ready_or_refused w t i with ⟨f, hsettings⟩ | ⟨s, f, hsettings, hrequest⟩ |
    ⟨s, r, e, made, hreads, hdirectory⟩ | ⟨s, r, made, hready⟩
  · have hrun := fun launch => run_of_no_settings (w := w.starting launch) hread hsettings
    exact stopped_of_fails hrun (.refl w t i)
  · have hrun := fun launch => run_of_no_request (w := w.starting launch) hread hsettings hrequest
    exact stopped_of_fails hrun (.refl w t i)
  · have hrun : ∀ launch, run (w.starting launch) t arguments =
        Progress.fails ⟨preamble i s r, made, none⟩ (w.starting launch)
          (during "Failed to create cache directory" (cacheOf w t s) e.message) := by
      intro launch
      rw [run_of_no_directory (w := w.starting launch) hread ⟨hreads.settings, hreads.request⟩
        hdirectory, cacheOf_starting]
    refine stopped_of_fails hrun (untouched_of_directory hreads ?_)
    rw [hdirectory]
    rfl
  -- the answer is the last that can be missing
  · cases hresult : (outcomeOf w t i s r made).result with
    | ok text => exact absurd ⟨s, r, _, _, made, text, hready, hresult, rfl, rfl⟩ h
    | error f =>
      have hrun : ∀ launch, run (w.starting launch) t arguments =
          (progressOf w t i s r made).fails (w.starting launch) f.account := by
        intro launch
        have heq := run_of_ready (w := w.starting launch) hread
          ⟨⟨hready.settings, hready.request⟩, hready.directory⟩
        rw [show (outcomeOf (w.starting launch) t i s r made).result = .error f
          from hresult] at heq
        exact heq
      exact stopped_of_fails hrun (untouched_of_outcome hready)

/-! ## Runs that come to code -/

theorem run_with_code (hread : Invocation.read arguments = .ok i)
    (h : Produces w t i s r tree code) :
    ∃ before p, (i.verbose = false → before = []) ∧
      p.output = before ++ said (i.dryRun || i.verbose) code ∧ p.tree = tree ∧
      Untouched w t i tree ∧
      ∀ launch, run (w.starting launch) t arguments =
        if i.dryRun then p.ends w 0
        else keepCode ((w.loaded t).starting launch) s i r p code := by
  obtain ⟨made, text, hready, hresult, htree, hcode⟩ := h
  have huntouched := untouched_of_outcome hready
  rw [htree] at huntouched
  refine ⟨preamble i s r ++ heading i,
    { progressOf w t i s r made with
      output := preamble i s r ++ heading i ++ said (i.dryRun || i.verbose) code },
    fun hquiet => ?_, rfl, htree, huntouched, fun launch => ?_⟩
  · simp [preamble, heading, said, hquiet]
  · have heq := run_of_ready (w := w.starting launch) hread
      ⟨⟨hready.settings, hready.request⟩, hready.directory⟩
    rw [show (outcomeOf (w.starting launch) t i s r made).result = .ok text
      from hresult] at heq
    simp only [hcode, useCode_eq] at heq
    exact heq

/-- The program that a run starts, or why there is none. -/
def childOf (w : World) (t : Tree) (s : Settings) (r : Request) (saved : Tree) (code : String) :
    Except IoError Process :=
  (Runner.ofSettings s).child? w.surroundings (w.loaded t).environment w.input saved code
    ((workplaceOf w r).path w.surroundings.cwd.path)

/-- What the program that a run starts finds: the code in its script and where it was to be kept,
and itself in the directory of the request. -/
structure Finds (w : World) (i : Invocation) (s : Settings) (r : Request) (saved : Tree)
    (code : String) (p : Process) : Prop where
  program : p.program = s.interpreter
  script : ∃ script, p.arguments = [script] ∧ readBytes p.tree p.cwd script = .ok (bytesOf code)
  directory : stat saved w.surroundings.cwd
    ((workplaceOf w r).path w.surroundings.cwd.path) = .ok (p.cwd, .directory)
  output : ∀ path, i.output = some path →
    readBytes p.tree w.surroundings.cwd path = .ok (bytesOf code)

theorem readBytes_of_savedTree (h : savedTree w i tree code = .ok saved) {path : String}
    (hpath : i.output = some path) :
    readBytes saved w.surroundings.cwd path = .ok (bytesOf code) := by
  simp only [savedTree, hpath] at h
  exact readBytes_of_writeFile h

theorem finds_of_childOf {child : Process} (hsaved : savedTree w i tree code = .ok saved)
    (h : childOf w t s r saved code = .ok child) : Finds w i s r saved code child := by
  obtain ⟨script, place, f, hgains, hcontent, hplace, hdirectory, heq, -⟩ := Runner.child?_spec h
  refine ⟨congrArg Process.program heq, ⟨script, congrArg Process.arguments heq, ?_⟩, hdirectory,
    fun path hpath => hgains.readBytes (readBytes_of_savedTree hsaved hpath)⟩
  rw [readBytes_of_file (hplace child.cwd) hgains.file, hcontent]

/-- A run whose code is kept, where it is to be kept. -/
theorem run_of_saved (hread : Invocation.read arguments = .ok i)
    (h : Produces w t i s r tree code) (hshow : i.dryRun = false)
    (hsaved : savedTree w i tree code = .ok saved) :
    ∃ before p, (i.verbose = false → before = []) ∧ p.output = before ∧ p.tree = saved ∧
      ∀ launch, run (w.starting launch) t arguments =
        if executes i then
          reportOf i p ((Runner.ofSettings s).runIn launch w.surroundings (w.loaded t).environment
            w.input saved code ((workplaceOf w r).path w.surroundings.cwd.path))
        else p.ends w 0 := by
  obtain ⟨before, p, hquiet, houtput, htree, -, hrun⟩ := run_with_code hread h
  subst htree
  refine ⟨p.output ++ notice i, { p with output := p.output ++ notice i, tree := saved },
    fun hverbose => ?_, rfl, rfl, fun launch => ?_⟩
  · have hnotice : notice i = [] := by
      unfold notice
      split
      · rfl
      · rw [hverbose, said, if_neg Bool.false_ne_true]
    simp [houtput, hquiet hverbose, hnotice, hshow, hverbose, said]
  · rw [hrun launch, hshow, if_neg Bool.false_ne_true]
    rw [keepCode_of_saved (w := (w.loaded t).starting launch) hsaved]
    simp only [runCode_eq, execution_eq, Runner.runAt_eq]
    rfl

theorem run_shown (hread : Invocation.read arguments = .ok i) (h : Produces w t i s r tree code)
    (hshow : i.dryRun = true) :
    (run w t arguments).status = 0 ∧ (run w t arguments).errors = [] ∧ Idle w t arguments ∧
      Untouched w t i (run w t arguments).tree ∧
      ∃ before, (run w t arguments).output = before ++ bytesOf (code ++ "\n") ∧
        (i.verbose = false → before = []) := by
  obtain ⟨before, p, hquiet, houtput, rfl, huntouched, hrun⟩ := run_with_code hread h
  simp only [hshow, if_true] at hrun
  obtain ⟨hrun, hidle⟩ := idle_of_eq hrun
  rw [hrun]
  refine ⟨rfl, rfl, hidle, huntouched, before, ?_, hquiet⟩
  rw [show (p.ends w 0).output = _ from houtput, hshow, Bool.true_or, said, if_pos rfl]

theorem run_unsaved (hread : Invocation.read arguments = .ok i) (h : Produces w t i s r tree code)
    (hshow : i.dryRun = false) {e : IoError} (herror : savedTree w i tree code = .error e) :
    (run w t arguments).status = 1 ∧ Idle w t arguments := by
  obtain ⟨before, p, -, -, rfl, -, hrun⟩ := run_with_code hread h
  cases hpath : i.output with
  | none => simp [savedTree, hpath] at herror
  | some path =>
    have hfails : ∀ launch, run (w.starting launch) t arguments =
        p.fails w (during "Failed to write generated code to" path e.message) := by
      intro launch
      rw [hrun launch, hshow, if_neg Bool.false_ne_true]
      exact keepCode_of_error (w := (w.loaded t).starting launch) hpath herror
    obtain ⟨hrun, hidle⟩ := idle_of_eq hfails
    rw [hrun]
    exact ⟨rfl, hidle⟩

theorem run_kept (hread : Invocation.read arguments = .ok i) (h : Produces w t i s r tree code)
    (hshow : i.dryRun = false) (hsaved : savedTree w i tree code = .ok saved)
    (hrest : executes i = false) :
    (run w t arguments).status = 0 ∧ Idle w t arguments ∧ (run w t arguments).tree = saved := by
  obtain ⟨before, p, -, -, rfl, hrun⟩ := run_of_saved hread h hshow hsaved
  simp only [hrest, Bool.false_eq_true, if_false] at hrun
  obtain ⟨hrun, hidle⟩ := idle_of_eq hrun
  rw [hrun]
  exact ⟨rfl, hidle, rfl⟩

theorem run_unstarted (hread : Invocation.read arguments = .ok i)
    (h : Produces w t i s r tree code) (hshow : i.dryRun = false)
    (hsaved : savedTree w i tree code = .ok saved) (hrest : executes i = true) {e : IoError}
    (herror : childOf w t s r saved code = .error e) :
    (run w t arguments).status = 1 ∧ Idle w t arguments := by
  obtain ⟨before, p, -, -, rfl, hrun⟩ := run_of_saved hread h hshow hsaved
  obtain ⟨t', -, hnone⟩ := Runner.child?_error herror
  simp only [hrest, if_true, hnone] at hrun
  obtain ⟨hrun, hidle⟩ := idle_of_eq hrun
  rw [hrun]
  exact ⟨rfl, hidle⟩

theorem run_started (hread : Invocation.read arguments = .ok i)
    (h : Produces w t i s r tree code) (hshow : i.dryRun = false)
    (hsaved : savedTree w i tree code = .ok saved) (hrest : executes i = true) {child : Process}
    (hchild : childOf w t s r saved code = .ok child) :
    (∀ e, w.launch child = .error e → (run w t arguments).status = 1) ∧
      ∀ f, w.launch child = .ok f →
        (run w t arguments).status = f.ending.status ∧ (run w t arguments).errors = f.errors ∧
          ∃ before, (run w t arguments).output = before ++ f.output := by
  obtain ⟨before, p, -, -, rfl, hrun⟩ := run_of_saved hread h hshow hsaved
  obtain ⟨script, place, g, -, -, -, -, -, hstart⟩ := Runner.child?_spec hchild
  simp only [hrest, if_true, hstart] at hrun
  rw [show run w t arguments = _ from hrun w.launch]
  refine ⟨fun e hfailed => ?_, fun f hfinished => ?_⟩
  · rw [hfailed]
    rfl
  · rw [hfinished]
    exact ⟨rfl, rfl, _, rfl⟩

/-- The stages of a run, for every command line that can be read and whatever the files, the
network and the programs do.

If there is no code, the status is one, nothing is started and nothing but the cache has changed. If
there is and it is only to be shown, it is shown, the status is zero, and again nothing is started
and nothing but the cache has changed. Otherwise it is written to where it is to be kept; if that
fails, the status is one and nothing is started. And a program is started if and only if it is asked
for or the code is not to be kept; it finds the same code, and its status is the status of the run,
or one if it could not be started. -/
theorem run_goes_by_stages (w : World) (t : Tree) (arguments : List String) (i : Invocation)
    (hread : Invocation.read arguments = .ok i) :
    let x := run w t arguments
    ((¬ ∃ s r tree code, Produces w t i s r tree code) →
      x.status = 1 ∧ Idle w t arguments ∧ Untouched w t i x.tree) ∧
    ∀ s r tree code, Produces w t i s r tree code →
      (i.dryRun = true →
        x.status = 0 ∧ x.errors = [] ∧ Idle w t arguments ∧ Untouched w t i x.tree ∧
          ∃ before, x.output = before ++ bytesOf (code ++ "\n") ∧
            (i.verbose = false → before = [])) ∧
      (i.dryRun = false →
        (∀ e, savedTree w i tree code = .error e → x.status = 1 ∧ Idle w t arguments) ∧
        ∀ saved, savedTree w i tree code = .ok saved →
          (∀ path, i.output = some path →
            readBytes saved w.surroundings.cwd path = .ok (bytesOf code)) ∧
          (¬ (i.execute = true ∨ i.output = none) →
            x.status = 0 ∧ Idle w t arguments ∧ x.tree = saved) ∧
          (i.execute = true ∨ i.output = none →
            (∀ e, childOf w t s r saved code = .error e →
              x.status = 1 ∧ Idle w t arguments) ∧
            ∀ child, childOf w t s r saved code = .ok child →
              Finds w i s r saved code child ∧
              (∀ e, w.launch child = .error e → x.status = 1) ∧
              ∀ f, w.launch child = .ok f →
                x.status = f.ending.status ∧ x.errors = f.errors ∧
                  ∃ before, x.output = before ++ f.output)) := by
  intro x
  refine ⟨run_without_code hread, fun s r tree code h => ⟨run_shown hread h, fun hshow =>
    ⟨fun e => run_unsaved hread h hshow, fun saved hsaved => ⟨fun path =>
      readBytes_of_savedTree hsaved, fun hidle => ?_, fun hstart => ?_⟩⟩⟩⟩
  · have hrest : executes i = false := by
      simpa [executes, Option.isSome_iff_ne_none] using hidle
    exact run_kept hread h hshow hsaved hrest
  · have hrest : executes i = true := by simpa [executes] using hstart
    refine ⟨fun e => run_unstarted hread h hshow hsaved hrest, fun child hchild => ?_⟩
    exact ⟨finds_of_childOf hsaved hchild, run_started hread h hshow hsaved hrest hchild⟩

/-- A world in which code is answered, and every program ends with status seven. -/
def apprentice : World where
  surroundings := ⟨[], 7, ["a"]⟩
  environment := [("LLMEXEC_CACHE_DIR", "/cache"), ("OPENAI_API_KEY", "k"), ("TMPDIR", "/tmp")]
  network := echoing " old"
  launch := fun p => .ok ⟨.exited 7, p.tree, [], []⟩
  input := []

def workroom : Tree := ⟨[(["cache"], .directory), (["tmp"], .directory)]⟩

def keptCommand : List String := ["--no-cache", "--model", "m", "-x", "--output", "out", "p"]

def keptInvocation : Invocation where
  script := "p"
  model := some "m"
  execute := true
  output := some "out"
  dryRun := false
  verbose := false
  limit := 0
  noCache := true

def workroomSettings : Settings where
  model := "gemini/gemini-2.5-flash"
  interpreter := "python3"
  cacheDirectory := some "/cache"
  temporaryDirectory := none
  timeout := 120
  accesses := { Accesses.unset with openAi := ⟨some "k", none⟩ }

theorem produces_in_workroom :
    Produces apprentice workroom keptInvocation workroomSettings ⟨"p", .inline⟩ workroom "old" := by
  refine ⟨workroom, "old", ⟨⟨by decide, by decide⟩, by rfl⟩, by decide +kernel, ?_,
    by decide⟩
  rw [outcomeOf, Generation.generate_without_cache (by decide)]

/-- The files of the workroom when the code is kept. -/
def keptTree : Tree := workroom.put ["out"] (.file ⟨bytesOf "old", 7, false⟩)

/-- A program that is kept and started finds itself in both files, and its status is the run's. -/
theorem kept_program_is_started :
    (run apprentice workroom keptCommand).status = 7 ∧
      ∃ child, childOf apprentice workroom workroomSettings ⟨"p", .inline⟩ keptTree "old" =
        .ok child ∧ Finds apprentice keptInvocation workroomSettings ⟨"p", .inline⟩ keptTree "old"
          child := by
  have hread : Invocation.read keptCommand = .ok keptInvocation := by decide
  obtain ⟨-, hcode⟩ := run_goes_by_stages apprentice workroom keptCommand keptInvocation hread
  obtain ⟨-, hkept⟩ := hcode workroomSettings ⟨"p", .inline⟩ workroom "old" produces_in_workroom
  obtain ⟨-, hsaved⟩ := hkept rfl
  obtain ⟨-, -, hstart⟩ := hsaved keptTree (by rfl)
  obtain ⟨-, hstarted⟩ := hstart (.inl rfl)
  obtain ⟨child, hchild⟩ : ∃ child, childOf apprentice workroom workroomSettings ⟨"p", .inline⟩
      keptTree "old" = .ok child := ⟨_, by rfl⟩
  obtain ⟨hfinds, -, hfinished⟩ := hstarted child hchild
  exact ⟨(hfinished _ rfl).1, child, hchild, hfinds⟩

end PromptRunner.CommandLine
