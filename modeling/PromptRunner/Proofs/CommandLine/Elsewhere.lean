import PromptRunner.Proofs.CommandLine.Pipeline
import PromptRunner.Proofs.Files.Alongside

/-!
# Runs that do not use a part of the files

A run reads by a few paths and writes by a few others. If all of them keep out of a part of the
files, and the program that it starts leaves the part alone, then the run goes the same way whatever
is in the part (`run_alike`): it says the same, it asks the same, and the part is as before. Each
stage has this from the stage before, because what is written next to the part is the same in both
trees and does not lead the later paths astray.

This is said of runs that leave the cache alone, from where the cache directory is made onwards.
-/

namespace PromptRunner

open PromptRunner.Files PromptRunner.Child PromptRunner.Text

variable {part : Location → Prop}

/-! ## Two executions -/

/-- What a program tells the one who started it. -/
def told (x : Except IoError Finished) : Except IoError (Ending × Bytes × Bytes) :=
  match x with
  | .error e => .error e
  | .ok f => .ok (f.ending, f.output, f.errors)

/-- A program that changes nothing in a part, and leaves its arguments leading out of it. -/
structure Spares (part : Location → Prop) (launch : Launcher) (p : Process) : Prop where
  spared : ∀ f, launch p = .ok f → Spared part p.tree f.tree
  arguments : ∀ f, launch p = .ok f → ∀ path ∈ p.arguments, KeepsOut part f.tree p.cwd path

/-- Programs of two kinds that spare a part and do not use it: two of them that find the same but
for the part tell the same. -/
structure Harmless (part : Location → Prop) (launch : Launcher) (P P' : Process → Prop) : Prop where
  left : ∀ p, P p → Spares part launch p
  right : ∀ p, P' p → Spares part launch p
  told : ∀ p p', P p → P' p' → p' = { p with tree := p'.tree } → AgreeOff part p.tree p'.tree →
    told (launch p') = told (launch p)

theorem Harmless.mono {launch : Launcher} {P P' Q Q' : Process → Prop}
    (h : Harmless part launch P P') (hleft : ∀ p, Q p → P p) (hright : ∀ p, Q' p → P' p) :
    Harmless part launch Q Q' :=
  ⟨fun p hp => h.left p (hleft p hp), fun p hp => h.right p (hright p hp),
    fun p p' hp hp' hsame => h.told p p' (hleft p hp) (hright p' hp') hsame⟩

/-- Executions that tell the same and change nothing in a part. -/
structure Execution.Alike (part : Location → Prop) (t t' : Tree) (x x' : Execution) : Prop where
  result : x'.result = x.result
  output : x'.output = x.output
  errors : x'.errors = x.errors
  left : Spared part t x.tree
  right : Spared part t' x'.tree

namespace Runner

variable {r : Runner} {s : Surroundings} {env : Environment} {t t' : Tree}
  {directory script : String} {cwd : Location}

/-- The path of the script under one of the names that it may get. -/
def scriptPath (r : Runner) (s : Surroundings) (env : Environment) (middle : String) : String :=
  Path.join (Path.join s.cwd.path (r.temporaryDirectory.getD (systemDirectory env)))
    (scriptName.start ++ middle ++ scriptName.finish)

theorem child?_together (input : Bytes) (code : String) (h : AgreeOff part t t')
    (hscript : ∀ middle ∈ s.names, KeepsOut part t s.cwd (r.scriptPath s env middle))
    (hdirectory : KeepsOut part t s.cwd directory) :
    Together (fun p p' => p' = { p with tree := p'.tree } ∧ Alongside part t t' p.tree p'.tree)
      (r.child? s env input t code directory) (r.child? s env input t' code directory) := by
  rcases createFresh_together s.now h hscript with
    ⟨e, hnone, hnone'⟩ | ⟨⟨script, u⟩, ⟨script', u'⟩, hmade, hmade', hpath, hout, hu⟩
  · refine .inl ⟨e, ?_, ?_⟩
    · simp only [child?, emptyScript, createTemporary, hnone]
    · simp only [child?, emptyScript, createTemporary, hnone']
  -- both scripts have one path, and what is written to it lies in one place
  · obtain rfl : script = script' := hpath.symm
    have hempty : r.emptyScript s env t = .ok (script, u) := hmade
    have hslashes := (slash_after_script hempty).1
    rcases writeFile_together s.now (bytesOf code) hu.agree (hslashes.symm ▸ hout) with
      ⟨e, hfailed, hfailed'⟩ | ⟨v, v', hwrite, hwrite', hv⟩
    · refine .inl ⟨e, ?_, ?_⟩
      · simp only [child?, emptyScript, createTemporary, hmade, hfailed]
      · simp only [child?, emptyScript, createTemporary, hmade', hfailed']
    · have hwhole := hu.trans hv
      have hcwd := (hdirectory.of_bearing hwhole.bearing).changeDirectory hwhole.agree
      simp only [child?, emptyScript, createTemporary, hmade, hmade', hwrite, hwrite', hcwd]
      cases changeDirectory v s.cwd directory with
      | error e => exact .inl ⟨e, rfl, rfl⟩
      | ok cwd => exact .inr ⟨_, _, rfl, rfl, rfl, hwhole⟩

theorem spared_removed (h : KeepsOut part t cwd script) : Spared part t (removed t cwd script) := by
  rw [removed]
  cases hremove : removeFile t cwd script with
  | error e => exact .refl t
  | ok u => exact spared_of_removeFile h hremove

theorem runIn_alike (launch : Launcher) (input : Bytes) (code : String) (h : AgreeOff part t t')
    (hscript : ∀ middle ∈ s.names, KeepsOut part t s.cwd (r.scriptPath s env middle))
    (hdirectory : KeepsOut part t s.cwd directory)
    (hchild : Harmless part launch (fun p => r.child? s env input t code directory = .ok p)
      (fun p => r.child? s env input t' code directory = .ok p)) :
    Execution.Alike part t t' (r.runIn launch s env input t code directory)
      (r.runIn launch s env input t' code directory) := by
  rcases child?_together input code h hscript hdirectory with
    ⟨e, hnone, hnone'⟩ | ⟨p, p', hp, hp', hsame, halong⟩
  · obtain ⟨u, hu, hrun⟩ := child?_error hnone
    obtain ⟨u', hu', hrun'⟩ := child?_error hnone'
    rw [hrun launch, hrun' launch]
    exact ⟨rfl, rfl, rfl, fun l _ => hu l, fun l _ => hu' l⟩
  · obtain ⟨script, place, f, hgains, -, hplace, -, heq, hrun⟩ := child?_spec hp
    obtain ⟨script', place', f', hgains', -, hplace', -, heq', hrun'⟩ := child?_spec hp'
    have htold := hchild.told p p' hp hp' hsame halong.agree
    rw [hrun launch, hrun' launch]
    cases hlaunch : launch p with
    | error e =>
      cases hlaunch' : launch p' with
      | ok g' => simp [told, hlaunch, hlaunch'] at htold
      | error e' =>
        obtain rfl : e' = e := by simpa [told, hlaunch, hlaunch'] using htold
        refine ⟨rfl, rfl, rfl, fun l _ => ?_, fun l _ => ?_⟩
        · exact removed_of_gains hgains (hplace p.cwd) l
        · exact removed_of_gains hgains' (hplace' p'.cwd) l
    | ok g =>
      cases hlaunch' : launch p' with
      | error e' => simp [told, hlaunch, hlaunch'] at htold
      | ok g' =>
        obtain ⟨hending, houtput, herrors⟩ :
            g'.ending = g.ending ∧ g'.output = g.output ∧ g'.errors = g.errors := by
          simpa [told, hlaunch, hlaunch'] using htold
        have hargument : script ∈ p.arguments := by
          rw [heq]
          exact List.mem_singleton_self script
        have hargument' : script' ∈ p'.arguments := by
          rw [heq']
          exact List.mem_singleton_self script'
        have hspares := hchild.left p hp
        have hspares' := hchild.right p' hp'
        refine ⟨congrArg (fun ending : Ending => Except.ok ending.status) hending, houtput,
          herrors, ?_, ?_⟩
        · exact (halong.left.trans (hspares.spared g hlaunch)).trans
            (spared_removed (hspares.arguments g hlaunch script hargument))
        · exact (halong.right.trans (hspares'.spared g' hlaunch')).trans
            (spared_removed (hspares'.arguments g' hlaunch' script' hargument'))

end Runner

namespace CommandLine

variable {w : World} {t t' made made' : Tree} {arguments : List String} {i : Invocation}
  {s : Settings} {r : Request} {p p' : Progress} {code : String} {d : Location}

/-! ## Runs that cannot be told apart -/

/-- Reports that say the same of runs that changed nothing in a part. -/
structure Report.Alike (part : Location → Prop) (t t' : Tree) (x x' : Report) : Prop where
  status : x'.status = x.status
  output : x'.output = x.output
  errors : x'.errors = x.errors
  asked : x'.asked = x.asked
  left : Spared part t x.tree
  right : Spared part t' x'.tree

/-- A run that would start a program if it came to code. -/
def launches (i : Invocation) : Bool := !i.dryRun && executes i

/-- The program that is started for some code, when it has been kept. -/
def StartsFor (w : World) (s : Settings) (i : Invocation) (r : Request) (t : Tree) (code : String)
    (child : Process) : Prop :=
  launches i = true ∧ ∃ saved, savedTree w i t code = .ok saved ∧
    (Runner.ofSettings s).child? w.surroundings w.environment w.input saved code
      ((workplaceOf w r).path w.surroundings.cwd.path) = .ok child

def Starts (w : World) (t : Tree) (i : Invocation) (child : Process) : Prop :=
  ∃ s r tree code, Produces w t i s r tree code ∧ StartsFor (w.loaded t) s i r tree code child

/-- What a run writes, and where it runs its code, by paths that keep out of a part. -/
structure WritesElsewhere (part : Location → Prop) (w : World) (s : Settings) (i : Invocation)
    (r : Request) (t : Tree) : Prop where
  output : ∀ path, i.dryRun = false → i.output = some path →
    KeepsOut part t w.surroundings.cwd (Path.withoutSlashes path)
  script : launches i = true → ∀ middle ∈ w.surroundings.names,
    KeepsOut part t w.surroundings.cwd
      ((Runner.ofSettings s).scriptPath w.surroundings w.environment middle)
  workplace : launches i = true →
    KeepsOut part t w.surroundings.cwd ((workplaceOf w r).path w.surroundings.cwd.path)

/-- A run that keeps out of a part with all its paths but the one of its cache directory: those of
its variables, its settings, its request, its output and its script. -/
structure Elsewhere (part : Location → Prop) (w : World) (t : Tree) (i : Invocation) : Prop where
  environment : ∀ l, l <:+ w.surroundings.cwd → KeepsOut part t l ".env"
  settings : KeepsOut part t w.surroundings.cwd (Settings.filePath (w.loaded t).environment)
  request : KeepsOut part t w.surroundings.cwd i.script
  writes : ∀ s r, Reads w t i s r → WritesElsewhere part (w.loaded t) s i r t

/-! ## What is read -/

theorem find_congr {cwd : Location}
    (h : ∀ l, l <:+ cwd → readBytes t' l ".env" = readBytes t l ".env") :
    Variables.find t' cwd = Variables.find t cwd := by
  induction cwd with
  | nil => simp only [Variables.find, Variables.find.fileIn, h [] (List.suffix_refl [])]
  | cons name outer ih =>
    have hfile := h (name :: outer) (List.suffix_refl _)
    have hrest := ih fun l hl => h l (hl.trans (List.suffix_cons name outer))
    simp only [Variables.find, Variables.find.fileIn, hfile, hrest]

theorem load_congr {cwd : Location} {env : Environment}
    (h : readText t' cwd (Settings.filePath env) = readText t cwd (Settings.filePath env)) :
    Settings.load t' cwd env = Settings.load t cwd env := by
  have hfile : Settings.ofFile t' cwd (Settings.filePath env) =
      Settings.ofFile t cwd (Settings.filePath env) := by
    unfold Settings.ofFile
    rw [h]
  unfold Settings.load
  rw [hfile]

namespace Elsewhere

variable (h : Elsewhere part w t i) (ha : AgreeOff part t t')
include h ha

theorem loaded_eq : w.loaded t' = w.loaded t := by
  have hfind := find_congr fun l hl => (h.environment l hl).readBytes ha
  simp only [World.loaded, Variables.load, hfind]

theorem load_eq :
    Settings.load t' w.surroundings.cwd (w.loaded t').environment =
      Settings.load t w.surroundings.cwd (w.loaded t).environment := by
  rw [h.loaded_eq ha]
  exact load_congr (h.settings.readText ha)

theorem resolve_eq :
    Request.resolve t' w.surroundings.cwd i.script =
      Request.resolve t w.surroundings.cwd i.script := by
  simp only [Request.resolve, h.request.isFile ha, h.request.readText ha]

theorem reads_iff : Reads w t' i s r ↔ Reads w t i s r := by
  constructor
  · exact fun hreads => ⟨(h.load_eq ha) ▸ hreads.settings, (h.resolve_eq ha) ▸ hreads.request⟩
  · intro hreads
    refine ⟨?_, ?_⟩
    · rw [h.load_eq ha]
      exact hreads.settings
    · rw [h.resolve_eq ha]
      exact hreads.request

end Elsewhere

/-! ## What is asked, said and started -/

/-- A run that leaves the cache alone asks, whatever the files are. -/
theorem outcomeOf_disabled (w : World) (t made : Tree)
    (hoff : Generation.usesCache (demandOf i s r) = false) :
    outcomeOf w t i s r made =
      ⟨Generation.asking ((Provider.ofSettings s (modelOf i s)).chat w.network) (demandOf i s r),
        made, some (Generation.query (modelOf i s) r.text)⟩ := by
  rw [outcomeOf, Generation.generate_without_cache hoff]
  rfl

theorem savedTree_together (code : String) (h : AgreeOff part t t')
    (hpath : ∀ path, i.output = some path →
      KeepsOut part t w.surroundings.cwd (Path.withoutSlashes path)) :
    Together (Alongside part t t') (savedTree w i t code) (savedTree w i t' code) := by
  unfold savedTree
  split
  · exact .inr ⟨t, t', rfl, rfl, .refl h⟩
  · next path hsome => exact writeFile_together _ _ h (hpath path hsome)

theorem reportOf_alike {x x' : Execution} (h : Execution.Alike part t t' x x')
    (houtput : p'.output = p.output) (hasked : p'.asked = p.asked) :
    Report.Alike part t t' (reportOf i p x) (reportOf i p' x') where
  status := by simp only [reportOf, h.result]
  output := by simp only [reportOf, houtput, h.output]
  errors := by simp only [reportOf, h.result, h.errors]
  asked := hasked
  left := h.left
  right := h.right

theorem WritesElsewhere.congr (h : WritesElsewhere part w s i r t) (ha : AgreeOff part t t') :
    WritesElsewhere part w s i r t' where
  output := fun path hshow hpath => (h.output path hshow hpath).congr ha
  script := fun hstarts middle hmiddle => (h.script hstarts middle hmiddle).congr ha
  workplace := fun hstarts => (h.workplace hstarts).congr ha

theorem keepCode_alike {output : Bytes} {asked : Option Provider.Query} (h : AgreeOff part t t')
    (hshow : i.dryRun = false) (hwrites : WritesElsewhere part w s i r t)
    (hchild : Harmless part w.launch (StartsFor w s i r t code) (StartsFor w s i r t' code)) :
    Report.Alike part t t' (keepCode w s i r ⟨output, t, asked⟩ code)
      (keepCode w s i r ⟨output, t', asked⟩ code) := by
  rcases savedTree_together code h (fun path => hwrites.output path hshow) with
    ⟨e, herror, herror'⟩ | ⟨saved, saved', hsaved, hsaved', halong⟩
  · cases hnone : i.output with
    | none => simp [savedTree, hnone] at herror
    | some path =>
      rw [keepCode_of_error hnone herror, keepCode_of_error hnone herror']
      exact ⟨rfl, rfl, rfl, rfl, .refl _, .refl _⟩
  · rw [keepCode_of_saved hsaved, keepCode_of_saved hsaved']
    dsimp only
    cases hrest : executes i with
    | false =>
      simp only [Bool.false_eq_true, if_false]
      exact ⟨rfl, rfl, rfl, rfl, halong.left, halong.right⟩
    | true =>
      have hlaunches : launches i = true := by simp [launches, hshow, hrest]
      simp only [if_true, runCode_eq, execution_eq, Runner.runAt_eq]
      have hrun := Runner.runIn_alike w.launch w.input code halong.agree
        (fun middle hmiddle =>
          (hwrites.script hlaunches middle hmiddle).of_bearing halong.bearing)
        ((hwrites.workplace hlaunches).of_bearing halong.bearing)
        (hchild.mono (fun child hchild => ⟨hlaunches, saved, hsaved, hchild⟩)
          fun child hchild => ⟨hlaunches, saved', hsaved', hchild⟩)
      refine reportOf_alike ⟨hrun.result, hrun.output, hrun.errors, ?_, ?_⟩ rfl rfl
      · exact halong.left.trans hrun.left
      · exact halong.right.trans hrun.right

/-- Runs that leave the cache alone and agree off a part once the cache directory is made. -/
theorem run_alike (hread : Invocation.read arguments = .ok i)
    (hoff : Generation.usesCache (demandOf i s r) = false) (hready : Ready w t i s r made)
    (hready' : Ready w t' i s r made') (hmade : AgreeOff part t made)
    (hagree : AgreeOff part made made') (hworld : w.loaded t' = w.loaded t)
    (h : Elsewhere part w t i) (hchild : Harmless part w.launch (Starts w t i) (Starts w t' i)) :
    Report.Alike part made made' (run w t arguments) (run w t' arguments) := by
  have houtcome := outcomeOf_disabled w t made hoff
  have houtcome' := outcomeOf_disabled w t' made' hoff
  -- the answer hangs on the settings and the network alone
  rw [run_of_ready hread hready, run_of_ready hread hready', progressOf, progressOf, houtcome,
    houtcome', hworld]
  dsimp only
  cases hresult : Generation.asking ((Provider.ofSettings s (modelOf i s)).chat w.network)
      (demandOf i s r) with
  | error f => exact ⟨rfl, rfl, rfl, rfl, .refl made, .refl made'⟩
  | ok text =>
    have hproduces : Produces w t i s r made (Answer.extractCode text) :=
      ⟨made, text, hready, by rw [houtcome, hresult], by rw [houtcome], rfl⟩
    have hproduces' : Produces w t' i s r made' (Answer.extractCode text) :=
      ⟨made', text, hready', by rw [houtcome', hresult], by rw [houtcome'], rfl⟩
    simp only [useCode_eq]
    cases hshow : i.dryRun with
    | true => exact ⟨rfl, rfl, rfl, rfl, .refl made, .refl made'⟩
    | false =>
      simp only [Bool.false_eq_true, if_false]
      refine keepCode_alike (w := w.loaded t) hagree hshow
        ((h.writes s r hready.toReads).congr hmade) (hchild.mono (fun child hstarts => ?_) ?_)
      · exact ⟨s, r, _, _, hproduces, hstarts⟩
      · intro child hstarts
        rw [← hworld] at hstarts
        exact ⟨s, r, _, _, hproduces', hstarts⟩

/-! ## What is started -/

theorem Produces.unique {s' : Settings} {r' : Request} {tree tree' : Tree} {code' : String}
    (h : Produces w t i s r tree code) (h' : Produces w t i s' r' tree' code') :
    s' = s ∧ r' = r ∧ tree' = tree ∧ code' = code := by
  obtain ⟨made, text, hready, hresult, rfl, rfl⟩ := h
  obtain ⟨made', text', hready', hresult', rfl, rfl⟩ := h'
  obtain rfl : s' = s := Except.ok.inj (hready'.settings.symm.trans hready.settings)
  obtain rfl : r' = r := Except.ok.inj (hready'.request.symm.trans hready.request)
  obtain rfl : made' = made := Except.ok.inj (hready'.directory.symm.trans hready.directory)
  obtain rfl : text' = text := Except.ok.inj (hresult'.symm.trans hresult)
  exact ⟨rfl, rfl, rfl, rfl⟩

theorem Starts.unique {child child' : Process} (h : Starts w t i child) (h' : Starts w t i child') :
    child' = child := by
  obtain ⟨s, r, tree, code, hproduces, -, saved, hsaved, hchild⟩ := h
  obtain ⟨s', r', tree', code', hproduces', -, saved', hsaved', hchild'⟩ := h'
  obtain ⟨rfl, rfl, rfl, rfl⟩ := hproduces.unique hproduces'
  obtain rfl : saved' = saved := Except.ok.inj (hsaved'.symm.trans hsaved)
  exact Except.ok.inj (hchild'.symm.trans hchild)

theorem harmless_self (h : ∀ child, Starts w t i child → Spares part w.launch child) :
    Harmless part w.launch (Starts w t i) (Starts w t i) where
  left := h
  right := h
  told := by
    intro child child' hchild hchild' _ _
    rw [hchild.unique hchild']

end CommandLine

end PromptRunner
