import PromptRunner.Proofs.Cache.Stored
import PromptRunner.Proofs.CommandLine.Stages
import PromptRunner.Proofs.Files.Present
import PromptRunner.Proofs.Generation

/-!
# The same run once more

A run that only shows code and sets no limit of age can be repeated without asking anybody, once its
answer is in the cache. Which answer is found depends on one file. The first run has found it there
or has put it there, and where that file can be reached, its directory is there as well, so that the
second run makes nothing before it looks.

An answer that was put there is found only if the way to it does not lead through the link that it
has replaced (`Direct`).
-/

namespace PromptRunner.CommandLine

open PromptRunner.Files PromptRunner.Text PromptRunner.Cache

variable {w : World} {t made u : Tree} {arguments : List String} {i : Invocation} {s : Settings}
  {r : Request} {text : String}

/-- The path of the answer to the demand of a run. -/
def answerPath (w : World) (t : Tree) (i : Invocation) (s : Settings) (r : Request) : String :=
  Cache.filePath (cacheOf w t s) (modelOf i s) r.text

/-- A run that finds its answer in the cache, or stores it there under a path that does not lead
through what storing replaces. -/
def Cached (w : World) (t : Tree) (i : Invocation) (s : Settings) (r : Request) : Prop :=
  ∃ made, Ready w t i s r made ∧
    ((outcomeOf w t i s r made).asked = none ∨
      (Generation.keeping ((Provider.ofSettings s (modelOf i s)).chat w.network) w.surroundings made
          (cacheOf w t s) (demandOf i s r)).1 = .ok () ∧
        Direct (prepared made w.surroundings.cwd (answerPath w t i s r)) w.surroundings.cwd
          (answerPath w t i s r))

theorem usesCache_demandOf (hlimit : i.limit = 0) (huses : i.noCache = false) :
    Generation.usesCache (demandOf i s r) = true := by
  simp [Generation.usesCache, demandOf, hlimit, huses]

/-- A run without a limit of age looks up the file at its path and leaves the files as they are. -/
theorem lookup_demandOf (hlimit : i.limit = 0) (t' : Tree) :
    Cache.lookup t' w.surroundings.cwd w.surroundings.now (demandOf i s r).limit
        (Cache.filePath (cacheOf w t s) (demandOf i s r).model (demandOf i s r).prompt) =
      ((fileAt t' w.surroundings.cwd (answerPath w t i s r)).bind fun f => answerIn f.content,
        t') := by
  rw [show (demandOf i s r).limit = 0 from hlimit]
  exact lookup_unlimited t' w.surroundings.cwd w.surroundings.now (answerPath w t i s r)

/-- An answer in the cache is the one that a run without a limit of age gets. -/
theorem outcome_of_hit (hlimit : i.limit = 0) (huses : i.noCache = false)
    (hfile : (fileAt made w.surroundings.cwd (answerPath w t i s r)).bind
      (fun f => answerIn f.content) = some text) :
    outcomeOf w t i s r made = ⟨.ok text, made, none⟩ := by
  have hlookup := lookup_demandOf (w := w) (t := t) (s := s) (r := r) hlimit made
  rw [hfile] at hlookup
  rw [outcomeOf, Generation.generate_hit (usesCache_demandOf hlimit huses) (by rw [hlookup]),
    hlookup]

/-- A run that could store its answer finds the same answer afterwards. -/
theorem hit_of_cached (hlimit : i.limit = 0) (huses : i.noCache = false)
    (hresult : (outcomeOf w t i s r made).result = .ok text)
    (hcached : (outcomeOf w t i s r made).asked = none ∨
      (Generation.keeping ((Provider.ofSettings s (modelOf i s)).chat w.network) w.surroundings made
          (cacheOf w t s) (demandOf i s r)).1 = .ok () ∧
        Direct (prepared made w.surroundings.cwd (answerPath w t i s r)) w.surroundings.cwd
          (answerPath w t i s r)) :
    (fileAt (outcomeOf w t i s r made).tree w.surroundings.cwd (answerPath w t i s r)).bind
      (fun f => answerIn f.content) = some text := by
  have hlookup := lookup_demandOf (w := w) (t := t) (s := s) (r := r) hlimit made
  cases hfound : (fileAt made w.surroundings.cwd (answerPath w t i s r)).bind
      fun f => answerIn f.content with
  -- either the answer was there and is there still, or it was asked for and stored
  | some answer =>
    rw [outcome_of_hit hlimit huses hfound] at hresult ⊢
    cases hresult
    exact hfound
  | none =>
    rw [hfound] at hlookup
    rw [outcomeOf, Generation.generate_miss (usesCache_demandOf hlimit huses) (by rw [hlookup]),
      hlookup] at hresult hcached ⊢
    simp only [reduceCtorEq, false_or] at hcached
    obtain ⟨hkept, hdirect⟩ := hcached
    simp only [Generation.keeping, Generation.asking] at hresult hkept ⊢
    cases hask : (Provider.ofSettings s (modelOf i s)).chat w.network
        (Generation.query (demandOf i s r).model (demandOf i s r).prompt) with
    | error f =>
      rw [hask] at hresult
      cases hresult
    | ok c =>
      rw [hask] at hresult hkept
      cases hresult
      refine (congrArg (Option.bind · _) (fileAt_of_store hdirect (store_eq hkept))).trans ?_
      rw [Option.bind_some, answerIn_text (Cache.finite_timestamp w.surroundings.now),
        Generation.entryOf]

theorem ensureDirectory_of_hit {f : RegularFile}
    (h : fileAt u w.surroundings.cwd (answerPath w t i s r) = some f) :
    Cache.ensureDirectory u w.surroundings.cwd (cacheOf w t s) = .ok u := by
  obtain ⟨loc, hstat⟩ := fileAt_eq_some h
  obtain ⟨l, hl⟩ := resolve_false (stat_iff.1 hstat).1
  exact createDirectories_of_resolve (plain_fileName (modelOf i s) r.text) hl

/-- What a run writes that shows its code and gets an answer. -/
theorem run_of_shown (hread : Invocation.read arguments = .ok i) (hready : Ready w t i s r made)
    (hshow : i.dryRun = true) {o : Outcome} (ho : outcomeOf w t i s r made = o)
    (hresult : o.result = .ok text) :
    run w t arguments =
      ⟨0, preamble i s r ++ heading i ++ bytesOf (Answer.extractCode text ++ "\n"), [], o.tree,
        w.surroundings.cwd, o.asked⟩ := by
  subst ho
  rw [run_of_ready hread hready, hresult]
  simp only [useCode_eq, hshow, Bool.true_or, said, if_true]
  rfl

/-- A run that shows its code, sets no limit of age, and has its answer in the cache afterwards can
be repeated without asking anybody: later, with other settings and variables and another network,
and in files that may have changed, as long as the model, the request and the cache directory are
the same and the file with the answer is still what its path names. It shows the same. -/
theorem repeated_run_is_offline (hread : Invocation.read arguments = .ok i)
    (hshow : i.dryRun = true) (hlimit : i.limit = 0) (huses : i.noCache = false)
    (hstatus : (run w t arguments).status = 0) (hcached : Cached w t i s r)
    {w' : World} {s' : Settings} (hreads : Reads w' u i s' r)
    (hcwd : w'.surroundings.cwd = w.surroundings.cwd) (hmodel : modelOf i s' = modelOf i s)
    (hdirectory : cacheOf w' u s' = cacheOf w t s)
    (hfile : fileAt u w.surroundings.cwd (answerPath w t i s r) =
      fileAt (run w t arguments).tree w.surroundings.cwd (answerPath w t i s r)) :
    (run w' u arguments).status = 0 ∧
      (run w' u arguments).output = (run w t arguments).output ∧
      (run w' u arguments).errors = (run w t arguments).errors ∧
      (run w' u arguments).asked = none ∧ (run w' u arguments).tree = u := by
  obtain ⟨made, hready, hkept⟩ := hcached
  cases hresult : (outcomeOf w t i s r made).result with
  | error f =>
    rw [run_of_ready hread hready, hresult] at hstatus
    cases hstatus
  | ok text =>
    have hfirst := run_of_shown hread hready hshow rfl hresult
    have hhit := hit_of_cached hlimit huses hresult hkept
    rw [hfirst] at hfile
    rw [← hfile] at hhit
    have hpath : answerPath w' u i s' r = answerPath w t i s r := by
      rw [answerPath, answerPath, hdirectory, hmodel]
    rw [← hpath, ← hcwd] at hhit
    cases hfound : fileAt u w'.surroundings.cwd (answerPath w' u i s' r) with
    | none =>
      rw [hfound] at hhit
      cases hhit
    | some f =>
      have hready' : Ready w' u i s' r u := ⟨hreads, ensureDirectory_of_hit hfound⟩
      have hsecond := run_of_shown hread hready' hshow (outcome_of_hit hlimit huses hhit) rfl
      have hsame : preamble i s' r = preamble i s r := by rw [preamble, preamble, hmodel]
      rw [hfirst, hsecond, hsame]
      exact ⟨rfl, rfl, rfl, rfl, rfl⟩

/-! ## Two runs in a room -/

/-- A world with a cache directory and a key, in which everyone who is asked has an answer. -/
def talkative (directory : String) : World where
  surroundings := ⟨[], 7, ["a"]⟩
  environment := [("LLMEXEC_CACHE_DIR", directory), ("OPENAI_API_KEY", "k")]
  network := echoing " old"
  launch := fun _ => .error (.system .noEntry)
  input := []

/-- The same world later, without a key and without a network. -/
def silent (directory : String) : World where
  surroundings := ⟨[], 9, []⟩
  environment := [("LLMEXEC_CACHE_DIR", directory)]
  network := fun _ => .unreachable
  launch := fun _ => .error (.system .noEntry)
  input := []

def shownCommand : List String := ["--dry-run", "--model", "m", "p"]

def shownInvocation : Invocation where
  script := "p"
  model := some "m"
  execute := false
  output := none
  dryRun := true
  verbose := false
  limit := 0
  noCache := false

def roomSettings (key : Option String) : Settings where
  model := "gemini/gemini-2.5-flash"
  interpreter := "python3"
  cacheDirectory := some "/cache"
  temporaryDirectory := none
  timeout := 120
  accesses := { Accesses.unset with openAi := ⟨key, none⟩ }

def room : Tree := ⟨[(["cache"], .directory)]⟩

def roomAfter : Tree := (run (talkative "/cache") room shownCommand).tree

theorem run_in_room :
    Invocation.read shownCommand = .ok shownInvocation ∧
      Cached (talkative "/cache") room shownInvocation (roomSettings (some "k"))
        ⟨"p", .inline⟩ ∧
      (run (talkative "/cache") room shownCommand).status = 0 ∧
      (run (talkative "/cache") room shownCommand).output = bytesOf "old\n" := by
  have hread : Invocation.read shownCommand = .ok shownInvocation := by decide
  have hready : Ready (talkative "/cache") room shownInvocation (roomSettings (some "k"))
      ⟨"p", .inline⟩ room := ⟨⟨by decide, by decide⟩, by rfl⟩
  have hdirectory : cacheOf (talkative "/cache") room (roomSettings (some "k")) = "/cache" := by
    decide
  have hpath : answerPath (talkative "/cache") room shownInvocation (roomSettings (some "k"))
      ⟨"p", .inline⟩ = "/cache/p.m.dc52f28a8a.json" := by
    rw [answerPath, hdirectory, Cache.filePath]
    exact congrArg (Path.join "/cache") fileName_m_p
  have hway : resolve (prepared room [] "/cache/p.m.dc52f28a8a.json") [] false
      "/cache/p.m.dc52f28a8a.json" = .ok ["p.m.dc52f28a8a.json", "cache"] := by decide
  have hdirect := direct_of_resolve hway (by decide)
  rw [← hpath] at hdirect
  have hresult : (outcomeOf (talkative "/cache") room shownInvocation (roomSettings (some "k"))
      ⟨"p", .inline⟩ room).result = .ok "old" := by decide +kernel
  refine ⟨hread, ⟨room, hready, .inr ⟨by decide +kernel, hdirect⟩⟩, ?_⟩
  rw [run_of_shown hread hready rfl rfl hresult]
  exact ⟨rfl, by decide⟩

theorem reads_roomAfter :
    Reads (silent "/cache") roomAfter shownInvocation (roomSettings none) ⟨"p", .inline⟩ ∧
      cacheOf (silent "/cache") roomAfter (roomSettings none) =
        cacheOf (talkative "/cache") room (roomSettings (some "k")) :=
  ⟨⟨by decide +kernel, by decide +kernel⟩, by decide +kernel⟩

theorem second_run_asks_nobody :
    (run (talkative "/cache") room shownCommand).output = bytesOf "old\n" ∧
      (run (silent "/cache") roomAfter shownCommand).status = 0 ∧
      (run (silent "/cache") roomAfter shownCommand).output = bytesOf "old\n" ∧
      (run (silent "/cache") roomAfter shownCommand).asked = none := by
  obtain ⟨hread, hcached, hstatus, houtput⟩ := run_in_room
  obtain ⟨hreads, hdirectory⟩ := reads_roomAfter
  obtain ⟨hagain, hsame, -, hasked, -⟩ := repeated_run_is_offline hread rfl rfl rfl
    hstatus hcached hreads rfl rfl hdirectory rfl
  exact ⟨houtput, hagain, hsame.trans houtput, hasked⟩

/-- A cache directory that is reached through the link at the place of the answer. -/
def passage : Tree :=
  ⟨[(["cache"], .directory), (["sub", "cache"], .directory),
    (["p.m.dc52f28a8a.json", "cache"], .link "sub")]⟩

/-- An answer that replaces the link to its own directory is stored, and the same run can no longer
make the directory. -/
theorem second_run_finds_no_directory :
    let directory := "/cache/p.m.dc52f28a8a.json/.."
    let x := run (talkative directory) passage shownCommand
    let y := run (silent directory) x.tree shownCommand
    x.status = 0 ∧ x.output = bytesOf "old\n" ∧
      (fileOf (x.tree.node? ["p.m.dc52f28a8a.json", "cache"])).bind
        (fun f => answerIn f.content) = some "old" ∧
      y.status = 1 ∧ y.output = [] := by
  decide +kernel

end PromptRunner.CommandLine
