import PromptRunner.CommandLine.Run
import PromptRunner.Proofs.Execution

/-!
# The stages of a run

A run that comes to an answer has read its settings and its request and has made the cache
directory. `Ready` says that it has come that far, and with which results; what it does from there
on is told by one equation for each stage. A run that does not come that far is refused, for one of
three reasons.

Nothing is started before there is code. So up to there a run is the same for every launcher
(`Idle`), and this is how it is said that nothing is started.
-/

namespace PromptRunner.CommandLine

open PromptRunner.Files PromptRunner.Text PromptRunner.Child

variable {w : World} {t made tree saved : Tree} {arguments : List String} {i : Invocation}
  {s : Settings} {r : Request} {p : Progress} {code line : String}

/-! ## What a run says -/

/-- A line as it is written, if it is wanted. -/
def said (wanted : Bool) (line : String) : Bytes := if wanted then bytesOf (line ++ "\n") else []

theorem sayIf_eq (p : Progress) (wanted : Bool) (line : String) :
    p.sayIf wanted line = { p with output := p.output ++ said wanted line } := by
  cases wanted
  · rw [said, if_neg Bool.false_ne_true, List.append_nil]
    rfl
  · rfl

/-- What a wordy run says before it asks for an answer. -/
def preamble (i : Invocation) (s : Settings) (r : Request) : Bytes :=
  said i.verbose ("Using model: " ++ modelOf i s) ++ said i.verbose ("Request: " ++ r.text) ++
    said i.verbose separator

/-- What a wordy run says before it shows the code. -/
def heading (i : Invocation) : Bytes := said i.verbose "Generated code:" ++ said i.verbose separator

/-! ## From the command line to the answer -/

/-- The world of a run whose files of variables have been read. -/
def World.loaded (w : World) (t : Tree) : World :=
  { w with environment := Variables.load t w.surroundings.cwd w.environment }

/-- The world of a run with something else that starts programs. -/
def World.starting (w : World) (launch : Launcher) : World := { w with launch := launch }

/-- The cache directory of a run. -/
def cacheOf (w : World) (t : Tree) (s : Settings) : String :=
  Cache.directory t w.surroundings.cwd w.surroundings.cwd.path s.cacheDirectory
    (w.loaded t).environment

theorem cacheOf_starting {launch : Launcher} : cacheOf (w.starting launch) t s = cacheOf w t s :=
  rfl

/-- A run that has its settings and its request. -/
structure Reads (w : World) (t : Tree) (i : Invocation) (s : Settings) (r : Request) : Prop where
  settings : Settings.load t w.surroundings.cwd (w.loaded t).environment = .ok s
  request : Request.resolve t w.surroundings.cwd i.script = .ok r

/-- A run that has its cache directory as well and may ask for an answer. -/
structure Ready (w : World) (t : Tree) (i : Invocation) (s : Settings) (r : Request) (made : Tree) :
    Prop extends Reads w t i s r where
  directory : Cache.ensureDirectory t w.surroundings.cwd (cacheOf w t s) = .ok made

def outcomeOf (w : World) (t : Tree) (i : Invocation) (s : Settings) (r : Request) (made : Tree) :
    Outcome :=
  Generation.generate ((Provider.ofSettings s (modelOf i s)).chat w.network) w.surroundings made
    (cacheOf w t s) (demandOf i s r)

def progressOf (w : World) (t : Tree) (i : Invocation) (s : Settings) (r : Request) (made : Tree) :
    Progress where
  output := preamble i s r
  tree := (outcomeOf w t i s r made).tree
  asked := (outcomeOf w t i s r made).asked

theorem fails_loaded (p : Progress) (account : String) :
    p.fails (w.loaded t) account = p.fails w account := rfl

theorem fails_starting {launch : Launcher} (p : Progress) (account : String) :
    p.fails (w.starting launch) account = p.fails w account := rfl

theorem run_of_read (hread : Invocation.read arguments = .ok i) :
    run w t arguments = carryOut w t i := by
  rw [run, hread]

theorem carryOut_eq :
    carryOut w t i =
      match Settings.load t w.surroundings.cwd (w.loaded t).environment with
      | .error f => Progress.fails ⟨[], t, none⟩ w f.message
      | .ok s => proceed (w.loaded t) t s i := by
  unfold carryOut World.loaded
  dsimp only
  cases Settings.load t w.surroundings.cwd (Variables.load t w.surroundings.cwd w.environment) with
  | error f => exact fails_loaded ⟨[], t, none⟩ f.message
  | ok s => rfl

theorem proceed_eq :
    proceed (w.loaded t) t s i =
      match Request.resolve t w.surroundings.cwd i.script with
      | .error f => Progress.fails ⟨[], t, none⟩ w f.account
      | .ok r =>
        match Cache.ensureDirectory t w.surroundings.cwd (cacheOf w t s) with
        | .error (e, made) => Progress.fails ⟨preamble i s r, made, none⟩ w
            (during "Failed to create cache directory" (cacheOf w t s) e.message)
        | .ok made => answer (w.loaded t) s i r (cacheOf w t s) ⟨preamble i s r, made, none⟩ := by
  simp only [proceed, sayIf_eq, ← fails_loaded (w := w) (t := t), preamble, List.nil_append,
    cacheOf]
  rfl

theorem answer_eq :
    answer (w.loaded t) s i r (cacheOf w t s) ⟨preamble i s r, made, none⟩ =
      match (outcomeOf w t i s r made).result with
      | .error f => (progressOf w t i s r made).fails w f.account
      | .ok text =>
        useCode (w.loaded t) s i r (progressOf w t i s r made) (Answer.extractCode text) := by
  rw [answer]
  rfl

theorem run_of_no_settings (hread : Invocation.read arguments = .ok i) {f : Failure}
    (h : Settings.load t w.surroundings.cwd (w.loaded t).environment = .error f) :
    run w t arguments = Progress.fails ⟨[], t, none⟩ w f.message := by
  rw [run_of_read hread, carryOut_eq, h]

theorem run_of_no_request (hread : Invocation.read arguments = .ok i) {f : Failure}
    (hsettings : Settings.load t w.surroundings.cwd (w.loaded t).environment = .ok s)
    (h : Request.resolve t w.surroundings.cwd i.script = .error f) :
    run w t arguments = Progress.fails ⟨[], t, none⟩ w f.account := by
  rw [run_of_read hread, carryOut_eq, hsettings]
  simp only [proceed_eq, h]

theorem run_of_no_directory (hread : Invocation.read arguments = .ok i) (h : Reads w t i s r)
    {e : IoError}
    (hdirectory : Cache.ensureDirectory t w.surroundings.cwd (cacheOf w t s) = .error (e, made)) :
    run w t arguments = Progress.fails ⟨preamble i s r, made, none⟩ w
      (during "Failed to create cache directory" (cacheOf w t s) e.message) := by
  rw [run_of_read hread, carryOut_eq, h.settings]
  simp only [proceed_eq, h.request, hdirectory]

theorem run_of_ready (hread : Invocation.read arguments = .ok i) (h : Ready w t i s r made) :
    run w t arguments =
      match (outcomeOf w t i s r made).result with
      | .error f => (progressOf w t i s r made).fails w f.account
      | .ok text =>
        useCode (w.loaded t) s i r (progressOf w t i s r made) (Answer.extractCode text) := by
  rw [run_of_read hread, carryOut_eq, h.settings]
  simp only [proceed_eq, h.request, h.directory, answer_eq]

theorem ready_or_refused (w : World) (t : Tree) (i : Invocation) :
    (∃ f, Settings.load t w.surroundings.cwd (w.loaded t).environment = .error f) ∨
    (∃ s f, Settings.load t w.surroundings.cwd (w.loaded t).environment = .ok s ∧
      Request.resolve t w.surroundings.cwd i.script = .error f) ∨
    (∃ s r e made, Reads w t i s r ∧
      Cache.ensureDirectory t w.surroundings.cwd (cacheOf w t s) = .error (e, made)) ∨
    ∃ s r made, Ready w t i s r made := by
  cases hsettings : Settings.load t w.surroundings.cwd (w.loaded t).environment with
  | error f => exact .inl ⟨f, rfl⟩
  | ok s =>
    cases hrequest : Request.resolve t w.surroundings.cwd i.script with
    | error f => exact .inr (.inl ⟨s, f, rfl, rfl⟩)
    | ok r =>
      cases hdirectory : Cache.ensureDirectory t w.surroundings.cwd (cacheOf w t s) with
      | error stopped =>
        exact .inr (.inr (.inl ⟨s, r, stopped.1, stopped.2, ⟨hsettings, hrequest⟩, hdirectory⟩))
      | ok made => exact .inr (.inr (.inr ⟨s, r, made, ⟨hsettings, hrequest⟩, hdirectory⟩))

/-! ## From the code to the end -/

theorem useCode_eq :
    useCode w s i r p code =
      let p := { p with output := p.output ++ heading i ++ said (i.dryRun || i.verbose) code }
      if i.dryRun then p.ends w 0 else keepCode w s i r p code := by
  simp only [useCode, sayIf_eq, heading, List.append_assoc]

/-- The code of a run kept: the tree with it, where it is to be kept. -/
def savedTree (w : World) (i : Invocation) (t : Tree) (code : String) : Except IoError Tree :=
  match i.output with
  | none => .ok t
  | some path => writeFile t w.surroundings.cwd w.surroundings.now path (bytesOf code)

/-- What a wordy run says when it has kept its code. -/
def notice (i : Invocation) : Bytes :=
  match i.output with
  | none => []
  | some path => said i.verbose ("\nCode saved to: " ++ path)

theorem keepCode_of_error {path : String} {e : IoError} (hpath : i.output = some path)
    (h : savedTree w i p.tree code = .error e) :
    keepCode w s i r p code =
      p.fails w (during "Failed to write generated code to" path e.message) := by
  simp only [savedTree, hpath] at h
  simp only [keepCode, hpath, h]

theorem keepCode_of_saved (h : savedTree w i p.tree code = .ok saved) :
    keepCode w s i r p code =
      let p := { p with output := p.output ++ notice i, tree := saved }
      if executes i then runCode w s i r p code else p.ends w 0 := by
  unfold savedTree at h
  split at h
  · next hnone =>
    cases h
    have hexecutes : executes i = true := by rw [executes, hnone, Option.isNone_none, Bool.or_true]
    simp only [keepCode, notice, hnone, hexecutes, if_true, List.append_nil]
  · next path hpath => simp only [keepCode, notice, hpath, h, sayIf_eq]

/-- Where the code of a request is run. -/
def workplaceOf (w : World) (r : Request) : Workplace :=
  match r.origin with
  | .file path => .script path
  | .inline => .directory w.surroundings.cwd.path

theorem execution_eq :
    execution w s r p code =
      (Runner.ofSettings s).runAt w.launch w.surroundings w.environment w.input p.tree code
        (workplaceOf w r) := by
  unfold execution workplaceOf
  cases r.origin <;> rfl

/-- What a wordy run says before it starts anything. -/
def launching (i : Invocation) : Bytes :=
  said i.verbose "\nExecuting generated code:" ++ said i.verbose separator

/-- The report of a run that started something, or could not. -/
def reportOf (i : Invocation) (p : Progress) (x : Execution) : Report where
  status := match x.result with
    | .ok status => status
    | .error _ => 1
  output := p.output ++ launching i ++ x.output
  errors := match x.result with
    | .ok _ => x.errors
    | .error f => x.errors ++ bytesOf ("Error: " ++ f.account ++ "\n")
  tree := x.tree
  cwd := x.cwd
  asked := p.asked

theorem runCode_eq : runCode w s i r p code = reportOf i p (execution w s r p code) := by
  have hsame : ∀ output, execution w s r { p with output := output } code =
      execution w s r p code := fun _ => rfl
  simp only [runCode, sayIf_eq, hsame, reportOf, launching, List.append_assoc]
  cases (execution w s r p code).result <;> rfl

/-- A network in which everyone who is asked for a completion answers the same. -/
def echoing (content : String) : Web.Network := fun _ =>
  .answered 200 (some (bytesOf
    ("\x7b\"choices\":[\x7b\"message\":\x7b\"role\":\"assistant\",\"content\":\"" ++ content ++
      "\"\x7d\x7d]\x7d")))

end PromptRunner.CommandLine
