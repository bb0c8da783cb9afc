import PromptRunner.Proofs.Cache.Room
import PromptRunner.Proofs.Cache.Vacant
import PromptRunner.Proofs.Generation

/-!
# A session answers as a memory would

A session is a run of calls, each with a demand, a provider to ask and a clock. What can be seen of
it are the answers and the questions to the provider. The files between the calls stand for a
memory, which remembers an answer and a time for each key, and the calls can be answered from the
memory alone: it finds what is young enough, forgets what is not, and remembers what it asked for,
unless that could not be written. Where there is room for every answer of the session at its start,
everything can be written, and the memory is one that no file comes into.

The memory and the files are held together by what each path holds (`Remembers`). One call keeps
them together, first as it looks an answer up and then as it stores one, and so does a session.
-/

namespace PromptRunner.Session

open PromptRunner.Files PromptRunner.Cache PromptRunner.Generation PromptRunner.Provider

/-- One call of a session: what is demanded, and what the provider, the clock and the names of
temporary files are at the time. -/
structure Call where
  demand : Demand
  ask : Ask
  now : Int
  names : List String

/-- What can be seen of a call: its answer, and what the provider was asked, if it was. -/
structure Reply where
  result : Except Failure String
  asked : Option Query
  deriving DecidableEq

namespace Call

/-- What an answer is kept under. -/
def key (c : Call) : String × String := (c.demand.model, c.demand.prompt)

/-- The path of the answer. -/
def path (directory : String) (c : Call) : String :=
  filePath directory c.demand.model c.demand.prompt

/-- What the provider is asked, if it is. -/
def question (c : Call) : Query := query c.demand.model c.demand.prompt

/-- What a call does with the files as they are. -/
def outcome (cwd : Location) (directory : String) (t : Tree) (c : Call) : Outcome :=
  generate c.ask ⟨cwd, c.now, c.names⟩ t directory c.demand

/-- What became of the answer that a call asked for, and the files afterwards. -/
def keeping (cwd : Location) (directory : String) (t : Tree) (c : Call) :
    Except IoError Unit × Tree :=
  Generation.keeping c.ask ⟨cwd, c.now, c.names⟩
    (lookup t cwd c.now c.demand.limit (c.path directory)).2 directory c.demand

/-- Whether the answer of a call could be written. -/
def writes (cwd : Location) (directory : String) (t : Tree) (c : Call) : Bool :=
  (c.keeping cwd directory t).1.isOk

end Call

/-- The replies of a session. -/
def replies (cwd : Location) (directory : String) : Tree → List Call → List Reply
  | _, [] => []
  | t, c :: calls =>
    let outcome := c.outcome cwd directory t
    ⟨outcome.result, outcome.asked⟩ :: replies cwd directory outcome.tree calls

/-- Which answers of a session could be written. -/
def writings (cwd : Location) (directory : String) : Tree → List Call → List Bool
  | _, [] => []
  | t, c :: calls =>
    c.writes cwd directory t :: writings cwd directory (c.outcome cwd directory t).tree calls

/-! ## The memory -/

/-- What is remembered of each key: an answer and the time it was written. -/
abbrev Memory := String × String → Option (String × Int)

namespace Memory

/-- What is remembered for a call and young enough for it. -/
def find (m : Memory) (c : Call) : Option String :=
  match m c.key with
  | some (answer, written) =>
    if Young c.now c.demand.limit written then some answer else none
  | none => none

/-- How a call is answered from a memory, where `written` says whether a new answer could be
written. -/
def step (m : Memory) (c : Call) (written : Bool) : Reply × Memory :=
  if c.demand.noCache = true ∨ c.demand.limit < 0 then
    match c.ask c.question with
    | .error e => (⟨.error (.generation e), some c.question⟩, m)
    | .ok completion => (⟨.ok (Text.trimmed completion.content), some c.question⟩, m)
  else
    match m.find c with
    | some answer => (⟨.ok answer, none⟩, m)
    | none =>
      match c.ask c.question with
      | .error e => (⟨.error (.generation e), some c.question⟩, Function.update m c.key none)
      | .ok completion =>
        let answer := Text.trimmed completion.content
        (⟨.ok answer, some c.question⟩,
          Function.update m c.key (if written then some (answer, c.now) else none))

/-- The replies of a session, answered from a memory. -/
def replies : Memory → List (Call × Bool) → List Reply
  | _, [] => []
  | m, (c, written) :: calls => (m.step c written).1 :: replies (m.step c written).2 calls

end Memory

/-! ## One call -/

variable {t : Tree} {cwd : Location} {directory : String} {keys : List (String × String)}
  {m : Memory} {c : Call}

/-- What is remembered of some keys is what their paths hold. -/
def Remembers (t : Tree) (cwd : Location) (directory : String) (keys : List (String × String))
    (m : Memory) : Prop :=
  ∀ key ∈ keys, Holds t cwd (filePath directory key.1 key.2) (m key)

/-- The files of some keys are all different. -/
def Distinct (directory : String) (keys : List (String × String)) : Prop :=
  ∀ key ∈ keys, ∀ other ∈ keys,
    filePath directory key.1 key.2 = filePath directory other.1 other.2 → key = other

theorem Distinct.fileName_ne (h : Distinct directory keys) {key other : String × String}
    (hkey : key ∈ keys) (hother : other ∈ keys) (hne : key ≠ other) :
    fileName key.1 key.2 ≠ fileName other.1 other.2 := by
  intro hname
  refine hne (h key hkey other hother ?_)
  rw [filePath, filePath, hname]

/-- What a change does to the key of a call and to the others is what it does to a memory. -/
theorem Remembers.update {t' : Tree} {held : Option (String × Int)}
    (hself : Holds t' cwd (c.path directory) held)
    (hothers : ∀ key ∈ keys, key ≠ c.key → Holds t' cwd (filePath directory key.1 key.2) (m key)) :
    Remembers t' cwd directory keys (Function.update m c.key held) := by
  intro key hkey
  by_cases hsame : key = c.key
  · rw [hsame, Function.update_self]
    exact hself
  · rw [Function.update_of_ne hsame]
    exact hothers key hkey hsame

/-- Looking up finds what is remembered, and what is too old is forgotten. -/
theorem remembers_lookup (hdistinct : Distinct directory keys) (hc : c.key ∈ keys)
    (h : Remembers t cwd directory keys m) (hlimit : 0 ≤ c.demand.limit) :
    (lookup t cwd c.now c.demand.limit (c.path directory)).1 = m.find c ∧
      Remembers (lookup t cwd c.now c.demand.limit (c.path directory)).2 cwd directory keys
        (if m.find c = none then Function.update m c.key none else m) := by
  have hself : Holds t cwd (c.path directory) (m c.key) := h c.key hc
  match hheld : m c.key with
  | none =>
    have hfind : m.find c = none := by simp only [Memory.find, hheld]
    rw [hheld] at hself
    rw [hself.lookup_nothing, hfind, if_pos rfl, ← hheld, Function.update_eq_self]
    exact ⟨rfl, h⟩
  | some (answer, written) =>
    rw [hheld] at hself
    by_cases hyoung : Young c.now c.demand.limit written
    · have hfind : m.find c = some answer := by simp only [Memory.find, hheld, if_pos hyoung]
      rw [hself.lookup_young hlimit hyoung, hfind, if_neg (Option.some_ne_none answer)]
      exact ⟨rfl, h⟩
    · have hfind : m.find c = none := by simp only [Memory.find, hheld, if_neg hyoung]
      obtain ⟨loc, f, hloc, hfile, hlookup⟩ := hself.lookup_old hlimit hyoung
      rw [hlookup, hfind, if_pos rfl]
      refine ⟨rfl, .update (holds_erased hloc hfile) fun key hkey hne => ?_⟩
      exact (h key hkey).of_erase (hdistinct.fileName_ne hkey hc hne) hloc hfile

/-- Keeping what was asked for is remembering it, if it could be written. -/
theorem remembers_keeping {looked : Tree} {completion : Completion}
    (hdistinct : Distinct directory keys) (hc : c.key ∈ keys)
    (h : Remembers looked cwd directory keys m) (hnone : m c.key = none)
    (hasked : c.ask c.question = .ok completion) :
    let kept := Generation.keeping c.ask ⟨cwd, c.now, c.names⟩ looked directory c.demand
    Remembers kept.2 cwd directory keys (Function.update m c.key
      (if kept.1.isOk then some (Text.trimmed completion.content, c.now) else none)) := by
  have hself : Holds looked cwd (c.path directory) none := hnone ▸ h c.key hc
  intro kept
  have hkept : Generation.keeping c.ask ⟨cwd, c.now, c.names⟩ looked directory c.demand = kept :=
    rfl
  clear_value kept
  rw [Generation.keeping, ← Call.question, hasked] at hkept
  simp only at hkept
  obtain ⟨result, t'⟩ := kept
  cases result with
  | error e =>
    have hgrows := store_error hkept
    exact .update (hself.grows hgrows) fun key hkey _ => (h key hkey).grows hgrows
  | ok u =>
    have hstored := holds_stored hself (finite_timestamp c.now) hkept
    simp only [entryOf, kept] at hstored
    refine .update hstored fun key hkey hne => ?_
    have hne := hdistinct.fileName_ne hkey hc hne
    exact Holds.of_store hne hself hkept (h key hkey)

/-- One call answers what the memory answers, and is remembered as it is. -/
theorem remembers_step (hdistinct : Distinct directory keys) (hc : c.key ∈ keys)
    (h : Remembers t cwd directory keys m) :
    let outcome := c.outcome cwd directory t
    let step := m.step c (c.writes cwd directory t)
    ⟨outcome.result, outcome.asked⟩ = step.1 ∧
      Remembers outcome.tree cwd directory keys step.2 := by
  simp only [Call.outcome, Memory.step]
  by_cases huses : c.demand.noCache = true ∨ c.demand.limit < 0
  · have huses' : usesCache c.demand = false := by
      rcases huses with hno | hlimit
      · simp [usesCache, hno]
      · simp [usesCache, Int.not_le.2 hlimit]
    rw [generate_without_cache huses', if_pos huses, asking, ← Call.question]
    cases c.ask c.question <;> exact ⟨rfl, h⟩
  · obtain ⟨hno, hlimit⟩ := not_or.1 huses
    have hlimit := Int.not_lt.1 hlimit
    have huses' : usesCache c.demand = true := by simp [usesCache, hno, hlimit]
    obtain ⟨hfound, hlooked⟩ := remembers_lookup hdistinct hc h hlimit
    rw [if_neg huses]
    cases hfind : m.find c with
    | some answer =>
      rw [hfind] at hfound
      rw [hfind, if_neg (Option.some_ne_none answer)] at hlooked
      rw [@generate_hit c.ask ⟨cwd, c.now, c.names⟩ t directory c.demand huses' answer hfound]
      exact ⟨rfl, hlooked⟩
    | none =>
      rw [hfind] at hfound
      rw [hfind, if_pos rfl] at hlooked
      rw [@generate_miss c.ask ⟨cwd, c.now, c.names⟩ t directory c.demand huses' hfound, asking,
        ← Call.question]
      cases hask : c.ask c.question with
      | error e =>
        refine ⟨rfl, ?_⟩
        rw [Generation.keeping, ← Call.question, hask]
        exact hlooked
      | ok completion =>
        refine ⟨rfl, ?_⟩
        have hkept := remembers_keeping hdistinct hc hlooked (Function.update_self ..) hask
        simp only [Function.update_idem] at hkept
        exact hkept

/-- An answer is not kept where the model is too long for the name of a file. -/
theorem writes_of_long {completion : Completion}
    (hlong : nameLimit < (modelPiece c.demand.model.toList).length)
    (hasked : c.ask c.question = .ok completion) : c.writes cwd directory t = false := by
  rw [Call.writes, Call.keeping, Generation.keeping, ← Call.question, hasked]
  simp only
  generalize hkept : store _ cwd c.now c.names _ _ = kept
  obtain ⟨result, t'⟩ := kept
  cases result with
  | error e => rfl
  | ok u =>
    obtain ⟨loc, hloc, -⟩ := store_ok hkept
    exact absurd hloc (no_way_of_long hlong)

/-! ## A whole session -/

theorem replies_eq {calls : List Call} (hdistinct : Distinct directory keys)
    (hcalls : ∀ c ∈ calls, c.key ∈ keys) (h : Remembers t cwd directory keys m) :
    replies cwd directory t calls = m.replies (calls.zip (writings cwd directory t calls)) := by
  induction calls generalizing t m with
  | nil => rfl
  | cons c calls ih =>
    obtain ⟨hc, hcalls⟩ := List.forall_mem_cons.1 hcalls
    obtain ⟨hreply, hnext⟩ := remembers_step hdistinct hc h
    rw [replies, writings, List.zip_cons_cons, Memory.replies, hreply, ih hcalls hnext]

/-! ## Room for every answer

Where there is room for every answer at the start, there is room for it when its turn comes. Before
the first answer is stored nothing has changed, and afterwards the directory is there and all that
has changed are the files of keys. -/

/-- What a tree can become in a session: itself, or one with the directory and some answers. -/
def Underway (t : Tree) (cwd : Location) (directory : String) (t' : Tree) : Prop :=
  t' = t ∨ Refilled (prepared t cwd (filePath directory "" "")) t'

variable {t' : Tree} {held : Option (String × Int)}

theorem Underway.room (h : Underway t cwd directory t')
    (hroom : Room t cwd c.now c.names (c.path directory)) :
    Room t' cwd c.now c.names (c.path directory) := by
  rcases h with rfl | hrefilled
  · exact hroom
  · rw [prepared_filePath t cwd directory c.demand.model c.demand.prompt] at hrefilled
    exact hroom.refilled hrefilled

theorem Underway.lookup (h : Underway t cwd directory t') (hvacant : Vacant t cwd directory)
    (hheld : Holds t' cwd (c.path directory) held) :
    Underway t cwd directory (lookup t' cwd c.now c.demand.limit (c.path directory)).2 := by
  rcases h with rfl | hrefilled
  · rw [Call.path, (hvacant c.demand.model c.demand.prompt).lookup_nothing]
    exact .inl rfl
  · rcases hheld.lookup_tree with hsame | ⟨loc, f, hloc, hfile, herased⟩
    · rw [hsame]
      exact .inr hrefilled
    · rw [herased]
      exact .inr (hrefilled.erase (keyed_of_resolve hloc) hfile)

theorem Underway.store {looked : Tree} (h : Underway t cwd directory looked)
    (hroom : Room t cwd c.now c.names (c.path directory))
    (hnothing : Holds looked cwd (c.path directory) none) (entry : Entry) :
    Underway t cwd directory
      (Cache.store looked cwd c.now c.names (c.path directory) entry).2 := by
  have hok : (Cache.store looked cwd c.now c.names (c.path directory) entry).1 = .ok () :=
    (store_iff_room _).2 (h.room hroom)
  obtain ⟨loc, hloc, hfree, hfile, hsame⟩ := free_of_store hnothing (store_eq hok)
  have hkey := keyed_of_resolve hloc
  rcases h with rfl | hrefilled
  · rw [Call.path, prepared_filePath looked cwd directory "" ""] at hfree hsame
    exact .inr ((Refilled.refl _).fill hkey hfree hfile hsame)
  · obtain ⟨place, hplace, -⟩ := hroom.place
    rw [Call.path, prepared_filePath t cwd directory "" ""] at hplace
    rw [Call.path, prepared_of_key (resolve_keeps hrefilled.keeps hplace)] at hfree hsame
    exact .inr (hrefilled.fill hkey hfree hfile hsame)

/-- Whether an answer could be written matters only if there is one. -/
theorem Memory.step_written {written : Bool}
    (h : ∀ completion, c.ask c.question = .ok completion → written = true) :
    m.step c written = m.step c true := by
  unfold Memory.step
  cases hask : c.ask c.question with
  | error e => rfl
  | ok completion => rw [h completion hask]

/-- One call, where there is room for its answer. -/
theorem step_of_room (hdistinct : Distinct directory keys) (hc : c.key ∈ keys)
    (hvacant : Vacant t cwd directory) (hroom : Room t cwd c.now c.names (c.path directory))
    (hunderway : Underway t cwd directory t') (h : Remembers t' cwd directory keys m) :
    m.step c (c.writes cwd directory t') = m.step c true ∧
      Underway t cwd directory (c.outcome cwd directory t').tree := by
  have hlooked := hunderway.lookup hvacant (h c.key hc)
  constructor
  · refine Memory.step_written fun completion hasked => ?_
    rw [Call.writes, Call.keeping, Generation.keeping, ← Call.question, hasked]
    simp only
    rw [← Call.path, (store_iff_room _).2 (hlooked.room hroom)]
    rfl
  · simp only [Call.outcome]
    cases huses : usesCache c.demand with
    | false =>
      rw [generate_without_cache huses]
      exact hunderway
    | true =>
      have hlimit : 0 ≤ c.demand.limit := by
        simp only [usesCache, Bool.and_eq_true, decide_eq_true_eq] at huses
        exact huses.2
      obtain ⟨hfound, hremembers⟩ := remembers_lookup hdistinct hc h hlimit
      cases hfind : m.find c with
      | some answer =>
        rw [hfind] at hfound
        rw [@generate_hit c.ask ⟨cwd, c.now, c.names⟩ t' directory c.demand huses answer hfound]
        exact hlooked
      | none =>
        rw [hfind] at hfound
        rw [hfind, if_pos rfl] at hremembers
        have hnothing := hremembers c.key hc
        rw [Function.update_self] at hnothing
        rw [@generate_miss c.ask ⟨cwd, c.now, c.names⟩ t' directory c.demand huses hfound,
          Generation.keeping]
        split
        · exact hlooked
        · simp only
          rw [← Call.path]
          exact hlooked.store hroom hnothing _

theorem replies_of_room {calls : List Call} (hdistinct : Distinct directory keys)
    (hcalls : ∀ c ∈ calls, c.key ∈ keys) (hvacant : Vacant t cwd directory)
    (hroom : ∀ c ∈ calls, Room t cwd c.now c.names (c.path directory))
    (hunderway : Underway t cwd directory t') (h : Remembers t' cwd directory keys m) :
    replies cwd directory t' calls = m.replies (calls.map (·, true)) := by
  induction calls generalizing t' m with
  | nil => rfl
  | cons c calls ih =>
    obtain ⟨hc, hcalls⟩ := List.forall_mem_cons.1 hcalls
    obtain ⟨hroom, hrooms⟩ := List.forall_mem_cons.1 hroom
    obtain ⟨hreply, hnext⟩ := remembers_step hdistinct hc h
    obtain ⟨hwritten, hunderway⟩ := step_of_room hdistinct hc hvacant hroom hunderway h
    rw [hwritten] at hreply hnext
    rw [replies, List.map_cons, Memory.replies, hreply, ih hcalls hrooms hunderway hnext]

/-- A session that starts with a vacant directory answers what a memory answers that starts with
nothing, if no two of its keys share a path. The memory keeps what could be written, and that is
everything if there is room for every answer at the start. -/
theorem session_is_a_memory {calls : List Call} (hvacant : Vacant t cwd directory)
    (hdistinct : Distinct directory (calls.map Call.key)) :
    replies cwd directory t calls =
        Memory.replies (fun _ => none) (calls.zip (writings cwd directory t calls)) ∧
      ((∀ c ∈ calls, Room t cwd c.now c.names (c.path directory)) →
        replies cwd directory t calls = Memory.replies (fun _ => none) (calls.map (·, true))) := by
  have hcalls : ∀ c ∈ calls, c.key ∈ calls.map Call.key := fun _ hc => List.mem_map_of_mem hc
  have hstart : Remembers t cwd directory (calls.map Call.key) fun _ => none :=
    fun key _ => hvacant key.1 key.2
  exact ⟨replies_eq hdistinct hcalls hstart,
    fun hroom => replies_of_room hdistinct hcalls hvacant hroom (.inl rfl) hstart⟩

/-- A call that the provider would answer with a given text. -/
def calling (model prompt : String) (limit now : Int) (answer : String) : Call :=
  ⟨⟨model, prompt, limit, false⟩, fun _ => .ok ⟨answer, none⟩, now, ["t"]⟩

theorem vacant_cache : Vacant .empty [] "cache" := by
  refine vacant_of_missing rooted_empty descending_empty (by decide +kernel) fun d hd => ?_
  have hmissing : reach .empty [] "cache" = .error .noEntry := by decide +kernel
  rw [hmissing] at hd
  cases hd

/-- An answer is asked for, found again, and asked for again when it is too old. -/
theorem answers_come_and_go :
    (replies [] "cache" .empty
      [calling "m" "p" 0 7 " one\n", calling "n" "q" 0 7 "two", calling "m" "p" 1 (7 + 1) "three",
        calling "m" "p" 1 (7 + second) "four"]).map (·.result) =
      [.ok "one", .ok "two", .ok "one", .ok "four"] := by
  rw [(session_is_a_memory vacant_cache (by unfold Distinct; decide +kernel)).2 ?_]
  · decide +kernel
  · have hroom : ∀ c : Call, (store .empty [] c.now c.names (c.path "cache")
        ⟨"", "", "", timestamp 0⟩).1 = .ok () → Room .empty [] c.now c.names (c.path "cache") :=
      fun c => (store_iff_room _).1
    simp only [List.forall_mem_cons]
    exact ⟨hroom _ (by decide +kernel), hroom _ (by decide +kernel), hroom _ (by decide +kernel),
      hroom _ (by decide +kernel), nofun⟩

/-- A model that is too long for the name of a file. -/
def longModel : String := String.ofList (List.replicate 300 'm')

/-- The same answer is asked for twice, under a model that is too long. -/
def unwritable : List Call :=
  [calling longModel "p" 0 0 "one", calling longModel "p" 0 0 "two"]

/-- Two answers are asked for, the second of which others left. -/
def misled : List Call := [calling "other" "q" 0 0 "one", calling "m" "p" 0 0 "two"]

theorem distinct_unwritable : Distinct "cache" (unwritable.map Call.key) := by
  simp [Distinct, unwritable, calling, Call.key]

theorem writings_unwritable : writings [] "cache" .empty unwritable = [false, false] := by
  have hlong : nameLimit < (modelPiece longModel.toList).length := by
    have hlist : longModel.toList = List.replicate 300 'm' := String.toList_ofList
    have hsafe : ∀ c ∈ List.replicate 300 'm', isSafe c = true := by
      intro c hc
      rw [List.eq_of_mem_replicate hc]
      decide
    rw [hlist, modelPiece_of_safe hsafe, List.length_replicate]
    decide
  have hno : ∀ t answer, (calling longModel "p" 0 0 answer).writes [] "cache" t = false :=
    fun t answer => writes_of_long hlong rfl
  rw [unwritable, writings, writings, writings, hno, hno]

/-- What was asked for is not remembered if it cannot be written; and a path that goes up out of a
missing directory may lead to what others left. -/
theorem session_is_no_memory :
    (Distinct "cache" (unwritable.map Call.key) ∧
      (replies [] "cache" .empty unwritable).map (·.result) = [.ok "one", .ok "two"] ∧
      (Memory.replies (fun _ => none) (unwritable.map (·, true))).map (·.result) =
        [.ok "one", .ok "one"]) ∧
    isDirectory settled [] "gone/../cache" = false ∧
      Distinct "gone/../cache" (misled.map Call.key) ∧
      (replies [] "gone/../cache" settled misled).map (·.result) = [.ok "one", .ok "old"] ∧
      (Memory.replies (fun _ => none) (misled.map (·, true))).map (·.result) =
        [.ok "one", .ok "two"] := by
  refine ⟨⟨distinct_unwritable, ?_, ?_⟩, ?_, ?_, ?_, ?_⟩
  · rw [replies_eq distinct_unwritable (fun _ hc => List.mem_map_of_mem hc)
      fun key _ => vacant_cache key.1 key.2, writings_unwritable]
    decide +kernel
  · decide +kernel
  · decide +kernel
  · simp only [Distinct, misled, calling, Call.key, filePath, List.map, fileName_m_p,
      fileName_other_q, List.forall_mem_cons]
    decide +kernel
  · simp only [misled, calling, replies, Call.outcome, generate, filePath, fileName_m_p,
      fileName_other_q]
    decide +kernel
  · decide +kernel

end PromptRunner.Session
