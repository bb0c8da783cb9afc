import PromptRunner.Proofs.CommandLine.Elsewhere
import PromptRunner.Proofs.Files.Present
import PromptRunner.Proofs.Provider.Routing
import PromptRunner.Proofs.Text.Bytes

/-!
# What a disabled cache still does

A run that is told to leave the cache alone neither looks into it nor stores anything. But it makes
the cache directory first, as every run does, and this is the one thing in which such a run depends
on what is in the directory's place: it makes the directory where nothing is, it comes to nothing
where something else is, and only where the directory is already does it go on as if there were no
cache.

So two file systems that differ only there are the same to the run exactly if making the directory
comes to the same in both and changes nothing in either.
-/

namespace PromptRunner.CommandLine

open PromptRunner.Files PromptRunner.Child PromptRunner.Text

variable {part : Location → Prop} {w : World} {t t' made made' : Tree} {arguments : List String}
  {i : Invocation} {s : Settings} {r : Request} {p : Progress} {code : String} {d : Location}

/-! ## What a run sends -/

/-- What a run sent that asked, or did not. -/
def sentBy (w : World) (t : Tree) (i : Invocation) (asked : Option Provider.Query) :
    List Web.WebRequest :=
  match Settings.load t w.surroundings.cwd (w.loaded t).environment with
  | .ok s => (asked.map (Provider.ofSettings s (modelOf i s)).requests).getD []
  | .error _ => []

theorem sentBy_of_settings {asked : Option Provider.Query}
    (h : Settings.load t w.surroundings.cwd (w.loaded t).environment = .ok s) :
    sentBy w t i asked = (asked.map (Provider.ofSettings s (modelOf i s)).requests).getD [] := by
  unfold sentBy
  rw [h]

/-- Nobody answers who has been sent nothing. -/
theorem sentBy_of_answered {q : Provider.Query} {c : Provider.Completion}
    (hsettings : Settings.load t w.surroundings.cwd (w.loaded t).environment = .ok s)
    (h : (Provider.ofSettings s (modelOf i s)).chat w.network q = .ok c) :
    sentBy w t i (some q) ≠ [] := by
  rw [sentBy_of_settings hsettings, Option.map_some, Option.getD_some, Provider.requests]
  rw [Provider.chat_eq] at h
  cases hprepared : (Provider.ofSettings s (modelOf i s)).prepare q with
  | error f =>
    rw [hprepared] at h
    cases h
  | ok request => exact List.cons_ne_nil request []

/-! ## Making the directory shows -/

/-- A run that makes its cache directory changes the part that the directory is in. -/
theorem taken_of_spared (hread : Invocation.read arguments = .ok i)
    (hoff : Generation.usesCache (demandOf i s r) = false) (h : Elsewhere part w t i)
    (hchild : ∀ child, Starts w t i child → Spares part w.launch child) (hpart : part d)
    (hreads : Reads w t i s r)
    (hplace : resolve t w.surroundings.cwd false (Path.withoutSlashes (cacheOf w t s)) = .ok d)
    (hspared : Spared part t (run w t arguments).tree) : t.node? d ≠ none := by
  intro hfree
  have hroot := ne_root_of_free hfree
  have hmade : Cache.ensureDirectory t w.surroundings.cwd (cacheOf w t s) =
      .ok (t.put d .directory) := by
    rcases createDirectories_cases hplace hroot with ⟨-, hmade⟩ | ⟨htaken, -⟩ | ⟨htaken, -⟩
    · exact hmade
    · exact absurd hfree htaken
    · exact absurd hfree htaken
  have hready : Ready w t i s r (t.put d .directory) := ⟨hreads, hmade⟩
  -- compared with itself, the run leaves alone what it has made
  have hworld : w.loaded t = w.loaded t := rfl
  have halike := run_alike hread hoff hready hready (agreeOff_put hpart) (.refl _) hworld h
    (harmless_self hchild)
  have hd := halike.left d hpart
  rw [t.node?_put_self .directory hroot, hspared d hpart, hfree] at hd
  cases hd

/-- The line for an answer that did not come is not the one for a directory that was not made. -/
theorem errors_apart (w : World) (p p' : Progress) (f : Failure) (path account : String) :
    (p.fails w (Failure.generation f).account).errors ≠
      (p'.fails w (during "Failed to create cache directory" path account)).errors := by
  have haccount : (Failure.generation f).account =
      "LLM API error" ++ ": " ++ ": ".intercalate (f.message :: f.causes) :=
    String.intercalate_cons_cons
  intro herrors
  have htexts := congrArg stringOf? herrors
  simp only [Progress.fails, stringOf?_bytesOf, haccount, during, Option.some.injEq] at htexts
  -- behind the word that all such lines begin with, the first letters differ
  have hletters := congrArg (fun text => (text.toList.drop 7).head?) htexts
  simp at hletters

theorem asked_keepCode : (keepCode w s i r p code).asked = p.asked := by
  cases hsaved : savedTree w i p.tree code with
  | error e =>
    cases hpath : i.output with
    | none => simp [savedTree, hpath] at hsaved
    | some path =>
      rw [keepCode_of_error hpath hsaved]
      rfl
  | ok saved =>
    rw [keepCode_of_saved hsaved]
    dsimp only
    split
    · rw [runCode_eq]
      rfl
    · rfl

theorem asked_useCode : (useCode w s i r p code).asked = p.asked := by
  rw [useCode_eq]
  dsimp only
  split
  · rfl
  · exact asked_keepCode

/-- A run that asks is told apart from one that cannot make its cache directory. -/
theorem told_apart (hread : Invocation.read arguments = .ok i)
    (hoff : Generation.usesCache (demandOf i s r) = false) (hready : Ready w t i s r made)
    (hreads' : Reads w t' i s r) {e : IoError}
    (hblocked : Cache.ensureDirectory t' w.surroundings.cwd (cacheOf w t' s) = .error (e, made'))
    (herrors : (run w t' arguments).errors = (run w t arguments).errors) :
    sentBy w t' i (run w t' arguments).asked ≠ sentBy w t i (run w t arguments).asked := by
  have hrun := run_of_ready hread hready
  rw [outcomeOf_disabled w t made hoff] at hrun
  rw [run_of_no_directory hread hreads' hblocked] at herrors ⊢
  rw [sentBy_of_settings hreads'.settings]
  dsimp only at hrun
  cases hanswer : (Provider.ofSettings s (modelOf i s)).chat w.network
      (Generation.query (modelOf i s) r.text) with
  -- where no answer came, the error lines differ; where one came, it had been asked for
  | error f =>
    have hresult : Generation.asking ((Provider.ofSettings s (modelOf i s)).chat w.network)
        (demandOf i s r) = .error (.generation f) := by
      simp only [Generation.asking, demandOf, hanswer]
    rw [hresult] at hrun
    rw [hrun] at herrors
    exact absurd herrors.symm (errors_apart w _ _ f _ _)
  | ok c =>
    have hresult : Generation.asking ((Provider.ofSettings s (modelOf i s)).chat w.network)
        (demandOf i s r) = .ok (Generation.kept c) := by
      simp only [Generation.asking, demandOf, hanswer]
    rw [hresult] at hrun
    rw [hrun, asked_useCode]
    have hasked : (progressOf w t i s r made).asked =
        some (Generation.query (modelOf i s) r.text) := by
      rw [progressOf, outcomeOf_disabled w t made hoff]
    rw [hasked]
    exact (sentBy_of_answered hready.settings hanswer).symm

/-! ## With the cache disabled -/

/-- Two trees that differ only in a part with the place of the cache directory in it, for a run that
uses the part for nothing else. -/
structure Apart (part : Location → Prop) (w : World) (t t' : Tree) (i : Invocation) (d : Location) :
    Prop where
  agree : AgreeOff part t t'
  inside : part d
  cache : ∀ s r, Reads w t i s r → cacheOf w t' s = cacheOf w t s ∧
    resolve t w.surroundings.cwd false (Path.withoutSlashes (cacheOf w t s)) = .ok d ∧
    resolve t' w.surroundings.cwd false (Path.withoutSlashes (cacheOf w t s)) = .ok d
  left : Elsewhere part w t i
  right : Elsewhere part w t' i
  child : Harmless part w.launch (Starts w t i) (Starts w t' i)

/-- Two runs that end alike, write and send the same, and change nothing in a part. -/
structure Unseen (part : Location → Prop) (w : World) (t t' : Tree) (i : Invocation)
    (arguments : List String) : Prop where
  status : (run w t' arguments).status = (run w t arguments).status
  output : (run w t' arguments).output = (run w t arguments).output
  errors : (run w t' arguments).errors = (run w t arguments).errors
  sent : sentBy w t' i (run w t' arguments).asked = sentBy w t i (run w t arguments).asked
  left : Spared part t (run w t arguments).tree
  right : Spared part t' (run w t' arguments).tree

/-- The place of a directory is taken by something else. -/
def Blocked (t : Tree) (cwd : Location) (path : String) (d : Location) : Prop :=
  t.node? d ≠ none ∧ isDirectory t cwd path = false

theorem Apart.ne_root (h : Apart part w t t' i d) : d ≠ [] := by
  rintro rfl
  exact (h.left.environment [] List.nil_suffix).start h.inside

theorem Report.Alike.unseen (h : Apart part w t t' i d)
    (halike : Report.Alike part t t' (run w t arguments) (run w t' arguments)) :
    Unseen part w t t' i arguments where
  status := halike.status
  output := halike.output
  errors := halike.errors
  sent := by
    unfold sentBy
    rw [h.left.load_eq h.agree, halike.asked]
  left := halike.left
  right := halike.right

theorem ensureDirectory_of_blocked {u : Tree} {cwd : Location} {path : String} (hroot : d ≠ [])
    (hplace : resolve u cwd false (Path.withoutSlashes path) = .ok d) (h : Blocked u cwd path d) :
    Cache.ensureDirectory u cwd path = .error (.system .exists_, u) := by
  rcases createDirectories_cases hplace hroot with ⟨hfree, -⟩ | ⟨-, hdirectory, -⟩ | ⟨-, -, hmade⟩
  · exact absurd hfree h.1
  · rw [h.2] at hdirectory
    cases hdirectory
  · exact hmade

theorem usesCache_of_disabled (h : i.noCache = true ∨ i.limit < 0) :
    Generation.usesCache (demandOf i s r) = false := by
  rcases h with hflag | hnegative
  · simp [Generation.usesCache, demandOf, hflag]
  · simp [Generation.usesCache, demandOf, hnegative]

theorem alike_of_refused (hread : Invocation.read arguments = .ok i) (h : Apart part w t t' i d)
    (hrefused : ¬ ∃ s r, Reads w t i s r) :
    Report.Alike part t t' (run w t arguments) (run w t' arguments) := by
  have hload := h.left.load_eq h.agree
  have hresolve := h.left.resolve_eq h.agree
  cases hsettings : Settings.load t w.surroundings.cwd (w.loaded t).environment with
  | error f =>
    rw [hsettings] at hload
    rw [run_of_no_settings hread hsettings, run_of_no_settings hread hload]
    exact ⟨rfl, rfl, rfl, rfl, .refl t, .refl t'⟩
  | ok s =>
    rw [hsettings] at hload
    cases hrequest : Request.resolve t w.surroundings.cwd i.script with
    | error f =>
      rw [hrequest] at hresolve
      rw [run_of_no_request hread hsettings hrequest, run_of_no_request hread hload hresolve]
      exact ⟨rfl, rfl, rfl, rfl, .refl t, .refl t'⟩
    | ok r => exact absurd ⟨s, r, hsettings, hrequest⟩ hrefused

theorem alike_of_blocked (hread : Invocation.read arguments = .ok i) (h : Apart part w t t' i d)
    (hreads : Reads w t i s r) (hblocked : Blocked t w.surroundings.cwd (cacheOf w t s) d)
    (hblocked' : Blocked t' w.surroundings.cwd (cacheOf w t s) d) :
    Report.Alike part t t' (run w t arguments) (run w t' arguments) := by
  obtain ⟨hcache, hplace, hplace'⟩ := h.cache s r hreads
  have hmade := ensureDirectory_of_blocked h.ne_root hplace hblocked
  have hmade' := ensureDirectory_of_blocked h.ne_root hplace' hblocked'
  rw [← hcache] at hmade'
  rw [run_of_no_directory hread hreads hmade,
    run_of_no_directory hread ((h.left.reads_iff h.agree).2 hreads) hmade', hcache]
  exact ⟨rfl, rfl, rfl, rfl, .refl t, .refl t'⟩

theorem alike_of_directory (hread : Invocation.read arguments = .ok i)
    (hdisabled : i.noCache = true ∨ i.limit < 0) (h : Apart part w t t' i d)
    (hreads : Reads w t i s r)
    (hdirectory : isDirectory t w.surroundings.cwd (cacheOf w t s) = true)
    (hdirectory' : isDirectory t' w.surroundings.cwd (cacheOf w t s) = true) :
    Report.Alike part t t' (run w t arguments) (run w t' arguments) := by
  obtain ⟨hcache, -, -⟩ := h.cache s r hreads
  rw [← hcache] at hdirectory'
  exact run_alike hread (usesCache_of_disabled hdisabled)
    ⟨hreads, createDirectories_of_isDirectory hdirectory⟩
    ⟨(h.left.reads_iff h.agree).2 hreads, createDirectories_of_isDirectory hdirectory'⟩
    (.refl t) h.agree (h.left.loaded_eq h.agree) h.left h.child

theorem state_of_unseen (hread : Invocation.read arguments = .ok i)
    (hdisabled : i.noCache = true ∨ i.limit < 0) (h : Apart part w t t' i d)
    (hunseen : Unseen part w t t' i arguments) (hreads : Reads w t i s r) :
    (isDirectory t w.surroundings.cwd (cacheOf w t s) = true ∧
      isDirectory t' w.surroundings.cwd (cacheOf w t s) = true) ∨
    (Blocked t w.surroundings.cwd (cacheOf w t s) d ∧
      Blocked t' w.surroundings.cwd (cacheOf w t s) d) := by
  obtain ⟨hcache, hplace, hplace'⟩ := h.cache s r hreads
  have hoff := usesCache_of_disabled (s := s) (r := r) hdisabled
  have hreads' := (h.left.reads_iff h.agree).2 hreads
  have htaken := taken_of_spared hread hoff h.left h.child.left h.inside hreads hplace hunseen.left
  have htaken' := taken_of_spared hread hoff h.right h.child.right h.inside hreads'
    (by rw [hcache, hplace']) hunseen.right
  cases hdirectory : isDirectory t w.surroundings.cwd (cacheOf w t s) with
  | true =>
    cases hdirectory' : isDirectory t' w.surroundings.cwd (cacheOf w t s) with
    | true => exact .inl ⟨rfl, rfl⟩
    | false =>
      have hblocked := ensureDirectory_of_blocked h.ne_root hplace' ⟨htaken', hdirectory'⟩
      rw [← hcache] at hblocked
      exact absurd hunseen.sent (told_apart hread hoff
        ⟨hreads, createDirectories_of_isDirectory hdirectory⟩ hreads' hblocked hunseen.errors)
  | false =>
    have hblocked := ensureDirectory_of_blocked h.ne_root hplace ⟨htaken, hdirectory⟩
    cases hdirectory' : isDirectory t' w.surroundings.cwd (cacheOf w t s) with
    | true =>
      rw [← hcache] at hdirectory'
      exact absurd hunseen.sent.symm (told_apart hread hoff
        ⟨hreads', createDirectories_of_isDirectory hdirectory'⟩ hreads hblocked
        hunseen.errors.symm)
    | false => exact .inr ⟨⟨htaken, hdirectory⟩, ⟨htaken', hdirectory'⟩⟩

/-- With the cache disabled, two file systems that differ only in a part with the place of the cache
directory in it, such as all that is in and below that place, cannot be told apart by a run and are
left alone by it in that part, exactly if the directory is there in both, or something else is in
its place in both, or the run ends before it comes to make the directory. -/
theorem disabled_cache_is_unseen_iff (hread : Invocation.read arguments = .ok i)
    (hdisabled : i.noCache = true ∨ i.limit < 0) (h : Apart part w t t' i d) :
    Unseen part w t t' i arguments ↔ ∀ s r, Reads w t i s r →
      (isDirectory t w.surroundings.cwd (cacheOf w t s) = true ∧
        isDirectory t' w.surroundings.cwd (cacheOf w t s) = true) ∨
      (Blocked t w.surroundings.cwd (cacheOf w t s) d ∧
        Blocked t' w.surroundings.cwd (cacheOf w t s) d) := by
  constructor
  · exact fun hunseen s r => state_of_unseen hread hdisabled h hunseen
  · intro hstate
    refine Report.Alike.unseen h ?_
    by_cases hrefused : ∃ s r, Reads w t i s r
    · obtain ⟨s, r, hreads⟩ := hrefused
      rcases hstate s r hreads with ⟨hdirectory, hdirectory'⟩ | ⟨hblocked, hblocked'⟩
      · exact alike_of_directory hread hdisabled h hreads hdirectory hdirectory'
      · exact alike_of_blocked hread h hreads hblocked hblocked'
    · exact alike_of_refused hread h hrefused

/-! ## An apprentice without a cache -/

/-- What is in and below the cache directory of the workroom. -/
abbrev Shelf (l : Location) : Prop := ["cache"] <:+ l

/-- The workroom with things in its cache. -/
def fullRoom : Tree :=
  (workroom.put ["x", "cache"] (.file ⟨[1], 0, false⟩)).put ["sub", "cache"] (.link "/tmp")

/-- What is started in a room when the code has been kept. -/
def keptChild (u : Tree) : Process where
  program := "python3"
  arguments := ["/tmp/llmexec-a.py"]
  tree := (u.put ["out"] (.file ⟨bytesOf "old", 7, false⟩)).put ["llmexec-a.py", "tmp"]
    (.file ⟨bytesOf "old", 7, false⟩)
  cwd := []
  environment := apprentice.environment
  input := []
  now := 7

section

variable {u : Tree} (hu : u = workroom ∨ u = fullRoom)
include hu

theorem ready_in_rooms :
    Ready apprentice u keptInvocation workroomSettings ⟨"p", .inline⟩ u := by
  rcases hu with rfl | rfl
  · exact ⟨⟨by decide, by decide⟩, by rfl⟩
  · exact ⟨⟨by decide, by decide⟩, by rfl⟩

theorem starts_in_rooms : Starts apprentice u keptInvocation (keptChild u) := by
  refine ⟨workroomSettings, ⟨"p", .inline⟩, u, "old", ⟨u, "old", ready_in_rooms hu, ?_, ?_,
    by decide⟩, by decide, u.put ["out"] (.file ⟨bytesOf "old", 7, false⟩), ?_, ?_⟩
  · rw [outcomeOf_disabled apprentice u u (by decide)]
    dsimp only
    decide +kernel
  · rw [outcomeOf_disabled apprentice u u (by decide)]
  · rcases hu with rfl | rfl <;> rfl
  · rcases hu with rfl | rfl <;> rfl

theorem reads_in_rooms (h : Reads apprentice u keptInvocation s r) :
    s = workroomSettings ∧ r = ⟨"p", .inline⟩ :=
  ⟨Except.ok.inj (h.settings.symm.trans (ready_in_rooms hu).settings),
    Except.ok.inj (h.request.symm.trans (ready_in_rooms hu).request)⟩

theorem elsewhere_in_rooms : Elsewhere Shelf apprentice u keptInvocation where
  environment := by
    intro l hl
    obtain rfl : l = [] := List.suffix_nil.1 hl
    rcases hu with rfl | rfl <;> decide
  settings := by rcases hu with rfl | rfl <;> decide
  request := by rcases hu with rfl | rfl <;> decide
  writes := by
    intro s r hreads
    obtain ⟨rfl, rfl⟩ := reads_in_rooms hu hreads
    refine ⟨fun path _ hpath => ?_, fun _ middle hmiddle => ?_, fun _ => ?_⟩
    · obtain rfl : "out" = path := Option.some.inj hpath
      rcases hu with rfl | rfl <;> decide
    · obtain rfl : middle = "a" := List.mem_singleton.1 hmiddle
      rcases hu with rfl | rfl <;> decide
    · rcases hu with rfl | rfl <;> decide

theorem spares_in_rooms (child : Process) (h : Starts apprentice u keptInvocation child) :
    Spares Shelf apprentice.launch child := by
  obtain rfl := (starts_in_rooms hu).unique h
  refine ⟨fun f hf => ?_, fun f hf path hpath => ?_⟩
  · cases hf
    exact .refl _
  · cases hf
    obtain rfl : path = "/tmp/llmexec-a.py" := List.mem_singleton.1 hpath
    rcases hu with rfl | rfl <;> decide

end

theorem apart_in_rooms : Apart Shelf apprentice workroom fullRoom keptInvocation ["cache"] where
  agree := (agreeOff_put (by decide)).trans (agreeOff_put (by decide))
  inside := List.suffix_refl _
  cache := by
    intro s r hreads
    obtain ⟨rfl, rfl⟩ := reads_in_rooms (.inl rfl) hreads
    exact ⟨by decide, by decide, by decide⟩
  left := elsewhere_in_rooms (.inl rfl)
  right := elsewhere_in_rooms (.inr rfl)
  child := ⟨spares_in_rooms (.inl rfl), spares_in_rooms (.inr rfl), fun _ _ _ _ _ _ => rfl⟩

/-- A run that keeps its code and starts it is the same with an empty cache and with a full one. -/
theorem full_cache_is_unseen :
    Unseen Shelf apprentice workroom fullRoom keptInvocation keptCommand := by
  have hread : Invocation.read keptCommand = .ok keptInvocation := by decide
  refine (disabled_cache_is_unseen_iff hread (.inl rfl) apart_in_rooms).2 fun s r hreads => ?_
  obtain ⟨rfl, rfl⟩ := reads_in_rooms (.inl rfl) hreads
  exact .inl ⟨by decide, by decide⟩

def uncachedCommand : List String := ["--no-cache", "--dry-run", "--model", "m", "p"]

def uncachedInvocation : Invocation where
  script := "p"
  model := some "m"
  execute := false
  output := none
  dryRun := true
  verbose := false
  limit := 0
  noCache := true

/-- A file in the place of the cache directory. -/
def blockedRoom : Tree := Tree.empty.put ["cache"] (.file ⟨[1], 0, false⟩)

theorem elsewhere_without_cache {u : Tree} (hu : u = .empty ∨ u = blockedRoom) :
    Elsewhere Shelf apprentice u uncachedInvocation where
  environment := by
    intro l hl
    obtain rfl : l = [] := List.suffix_nil.1 hl
    rcases hu with rfl | rfl <;> decide
  settings := by rcases hu with rfl | rfl <;> decide
  request := by rcases hu with rfl | rfl <;> decide
  writes := fun _ _ _ => ⟨fun _ hshow _ => absurd hshow (by decide),
    fun hstarts => absurd hstarts (by decide), fun hstarts => absurd hstarts (by decide)⟩

theorem nothing_starts {u : Tree} (child : Process) :
    ¬ Starts apprentice u uncachedInvocation child :=
  fun ⟨_, _, _, _, _, hlaunches, _⟩ => absurd hlaunches (by decide)

theorem apart_without_cache :
    Apart Shelf apprentice .empty blockedRoom uncachedInvocation ["cache"] where
  agree := agreeOff_put (List.suffix_refl _)
  inside := List.suffix_refl _
  cache := by
    intro s r hreads
    have hsettings : Settings.load .empty [] (apprentice.loaded .empty).environment =
        .ok workroomSettings := by decide
    obtain rfl := Except.ok.inj (hsettings.symm.trans hreads.settings)
    exact ⟨by decide, by decide, by decide⟩
  left := elsewhere_without_cache (.inl rfl)
  right := elsewhere_without_cache (.inr rfl)
  child := ⟨fun child h => absurd h (nothing_starts child),
    fun child h => absurd h (nothing_starts child), fun _ _ _ _ _ _ => rfl⟩

/-- A run that is told to leave the cache alone makes the cache directory where it is missing, and
comes to nothing where it cannot be made. -/
theorem missing_directory_is_made_without_cache :
    Apart Shelf apprentice .empty blockedRoom uncachedInvocation ["cache"] ∧
      Invocation.read uncachedCommand = .ok uncachedInvocation ∧
      uncachedInvocation.noCache = true ∧
      (run apprentice .empty uncachedCommand).status = 0 ∧
      (run apprentice .empty uncachedCommand).tree.node? ["cache"] = some .directory ∧
      (run apprentice blockedRoom uncachedCommand).status = 1 ∧
      ¬ Unseen Shelf apprentice .empty blockedRoom uncachedInvocation uncachedCommand := by
  have hmade : (run apprentice .empty uncachedCommand).tree.node? ["cache"] = some .directory := by
    decide +kernel
  refine ⟨apart_without_cache, by decide, rfl, by decide +kernel, hmade, by decide +kernel,
    fun hunseen => ?_⟩
  have hspared := hunseen.left ["cache"] (List.suffix_refl _)
  rw [hmade] at hspared
  cases hspared

end PromptRunner.CommandLine
