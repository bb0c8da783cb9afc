import PromptRunner.Proofs.Generation
import PromptRunner.Proofs.Sharing.Origins

/-!
# The cache never stands in the way of an answer

A demand is answered in any state of the files and whatever the system refuses at any access. Its
process looks into the cache as a lookup does, if it may, and asks the provider once if nothing was
found there; its answer is what was found or what the provider said, and it fails only as the
provider does. Storing has no part in that. What a failure leaves behind is what the lookup left: a
file of the key that was too old may be gone.
-/

namespace PromptRunner.Sharing

open PromptRunner.Files PromptRunner.Cache PromptRunner.Generation PromptRunner.Provider

variable {p : Process} {m : Moment} {t : Tree} {phase : Phase} {e : Entry} {d : Demand}
  {cwd : Location} {directory : String}

/-- What was asked and what was said to it. -/
def calls : List Event → List (Demand × Except Failure Completion)
  | [] => []
  | .asked d reply :: log => (d, reply) :: calls log
  | _ :: log => calls log

theorem calls_append (log later : List Event) :
    calls (log ++ later) = calls log ++ calls later := by
  induction log with
  | nil => rfl
  | cons told log ih => cases told <;> simp [calls, ih]

/-- Nobody is asked by any other access. -/
theorem calls_event (h : phase ≠ .asking) : calls (event p m t phase).toList = [] := by
  cases htold : event p m t phase with
  | none => rfl
  | some told =>
    cases told with
    | asked d reply => exact absurd (meaning_of_event htold).1 h
    | _ => rfl

/-! ## Storing -/

/-- A process that has an entry to store asks nothing more, and is done with it in time, whatever
comes of it. -/
theorem closed_of_entry {moments : List Moment} (he : phase.carried? = some e)
    (hrank : phase.rank ≤ moments.length) :
    (∃ outcome, (alone p moments t phase).2 = p.work.closed e outcome) ∧
      calls (heard p moments t phase) = [] := by
  induction moments generalizing t phase with
  | nil =>
    obtain ⟨r, rfl⟩ := done_of_rank (Nat.le_zero.1 hrank)
    cases he
  | cons m moments ih =>
    have hasking : phase ≠ .asking := by
      rintro rfl
      cases he
    rw [alone, heard, calls_append, calls_event hasking, List.nil_append]
    rcases entry_after (p := p) (m := m) (t := t) he with ⟨outcome, hclosed⟩ | ⟨-, hsame⟩
    · rw [hclosed]
      refine ⟨⟨outcome, by rw [alone_closed]⟩, ?_⟩
      cases p.work <;> exact congrArg calls (heard_done ..)
    · refine ih hsame ?_
      have hstep := rank_advance p m t phase
      rw [List.length_cons] at hrank
      omega

/-! ## Asking -/

/-- The provider is asked once, and what it says is the answer. -/
theorem asking_cases (hwork : p.work = .answer d) {moments : List Moment}
    (hlength : 5 ≤ moments.length) :
    calls (heard p (m :: moments) t .asking) = [(d, m.ask (query d.model d.prompt))] ∧
      match m.ask (query d.model d.prompt) with
      | .error cause => alone p (m :: moments) t .asking =
          (t, .done (.answered (.error (.generation cause))))
      | .ok c => (alone p (m :: moments) t .asking).2 = .done (.answered (.ok (kept c))) := by
  rw [heard, alone]
  simp only [event, hwork, calls_append, advance, Work.replied]
  cases m.ask (query d.model d.prompt) with
  | error cause =>
    simp only [heard_done, alone_done]
    exact ⟨rfl, trivial⟩
  | ok c =>
    simp only
    split
    · let e : Entry := ⟨d.model, d.prompt, kept c, timestamp m.now⟩
      obtain ⟨⟨outcome, hclosed⟩, hcalls⟩ := closed_of_entry (p := p) (t := t)
        (show (Phase.preparing e).carried? = some e from rfl) hlength
      rw [hcalls, hclosed, hwork]
      exact ⟨rfl, rfl⟩
    · simp only [heard_done, alone_done]
      exact ⟨rfl, trivial⟩

/-! ## Looking -/

/-- A process that looks an answer up. -/
def looker (cwd : Location) (directory : String) (d : Demand) : Process :=
  ⟨cwd, directory, .lookup d.model d.prompt d.limit⟩

/-- A process that answers. -/
def answerer (cwd : Location) (directory : String) (d : Demand) : Process :=
  ⟨cwd, directory, .answer d⟩

/-- Where a process that answers stands when one that only looks up stands somewhere. -/
def continued : Phase → Phase
  | .done (.found none) => .asking
  | .done (.found (some content)) => .done (.answered (.ok content))
  | phase => phase

theorem path_looker : (looker cwd directory d).path = filePath directory d.model d.prompt := rfl

theorem path_answerer : (answerer cwd directory d).path = filePath directory d.model d.prompt := rfl

/-- Both have the same glance. -/
theorem advance_looking (m : Moment) (t : Tree) (cwd : Location) (directory : String)
    (d : Demand) :
    ∃ phase, advance (looker cwd directory d) m t .looking = (t, phase) ∧
      advance (answerer cwd directory d) m t .looking = (t, continued phase) ∧
      (phase = .done (.found none) ∨ phase = .valid ∨ phase = .expired ∧
        glance t cwd m.now d.limit (filePath directory d.model d.prompt) = .expired) := by
  simp only [advance, path_looker, path_answerer]
  simp only [looker, answerer, Work.limit, Work.missed]
  cases m.refusal with
  | some r => exact ⟨_, rfl, rfl, .inl rfl⟩
  | none =>
    cases glance t cwd m.now d.limit (filePath directory d.model d.prompt) with
    | missing => exact ⟨_, rfl, rfl, .inl rfl⟩
    | expired => exact ⟨_, rfl, rfl, .inr (.inr ⟨rfl, rfl⟩)⟩
    | valid => exact ⟨_, rfl, rfl, .inr (.inl rfl)⟩

/-- Both remove an expired file, or fail to. -/
theorem advance_expired (m : Moment) (t : Tree) (cwd : Location) (directory : String)
    (d : Demand) :
    ∃ t', advance (looker cwd directory d) m t .expired = (t', .done (.found none)) ∧
      advance (answerer cwd directory d) m t .expired = (t', .asking) ∧
      (t' = t ∨ t' = Cache.discard t cwd (filePath directory d.model d.prompt)) := by
  simp only [advance, path_looker, path_answerer]
  simp only [looker, answerer, Work.missed]
  cases m.refusal with
  | some r => exact ⟨_, rfl, rfl, .inl rfl⟩
  | none => exact ⟨_, rfl, rfl, .inr rfl⟩

/-- Both read the same. -/
theorem advance_valid (m : Moment) (t : Tree) (cwd : Location) (directory : String)
    (d : Demand) :
    ∃ found, advance (looker cwd directory d) m t .valid = (t, .done (.found found)) ∧
      advance (answerer cwd directory d) m t .valid = (t, continued (.done (.found found))) := by
  simp only [advance, path_looker, path_answerer]
  simp only [looker, answerer, Work.missed, Work.hit]
  cases m.refusal with
  | some r => exact ⟨none, rfl, rfl⟩
  | none =>
    cases readAnswer t cwd (filePath directory d.model d.prompt) with
    | none => exact ⟨none, rfl, rfl⟩
    | some content => exact ⟨some content, rfl, rfl⟩

theorem alone_next {t' : Tree} {next : Phase} (h : advance p m t phase = (t', next))
    (moments : List Moment) :
    alone p (m :: moments) t phase = alone p moments t' next := by rw [alone, h]

theorem calls_next {t' : Tree} {next : Phase} (h : advance p m t phase = (t', next))
    (hphase : phase ≠ .asking) (moments : List Moment) :
    calls (heard p (m :: moments) t phase) = calls (heard p moments t' next) := by
  rw [heard, calls_append, calls_event hphase, List.nil_append, h]

/-- A process that answers goes on from where a lookup ends. -/
theorem looking_cases (m m' : Moment) (rest : List Moment) (t : Tree) (cwd : Location)
    (directory : String) (d : Demand) :
    ∃ found t' left, (left = m' :: rest ∨ left = rest) ∧
      alone (looker cwd directory d) (m :: m' :: rest) t .looking = (t', .done (.found found)) ∧
      alone (answerer cwd directory d) (m :: m' :: rest) t .looking =
        alone (answerer cwd directory d) left t' (continued (.done (.found found))) ∧
      calls (heard (answerer cwd directory d) (m :: m' :: rest) t .looking) =
        calls (heard (answerer cwd directory d) left t' (continued (.done (.found found)))) ∧
      (t' = t ∨ t' = Cache.discard t cwd (filePath directory d.model d.prompt) ∧
        glance t cwd m.now d.limit (filePath directory d.model d.prompt) = .expired) := by
  obtain ⟨phase, hlooker, hanswerer, hphase⟩ := advance_looking m t cwd directory d
  rw [alone_next hlooker, alone_next hanswerer, calls_next hanswerer nofun]
  rcases hphase with rfl | rfl | ⟨rfl, hglance⟩
  · exact ⟨none, t, m' :: rest, .inl rfl, alone_done .., rfl, rfl, .inl rfl⟩
  · obtain ⟨found, hlooker', hanswerer'⟩ := advance_valid m' t cwd directory d
    simp only [continued]
    rw [alone_next hlooker', alone_next hanswerer', calls_next hanswerer' nofun]
    exact ⟨found, t, rest, .inr rfl, alone_done .., rfl, rfl, .inl rfl⟩
  · obtain ⟨t', hlooker', hanswerer', htree⟩ := advance_expired m' t cwd directory d
    simp only [continued]
    rw [alone_next hlooker', alone_next hanswerer', calls_next hanswerer' nofun]
    exact ⟨none, t', rest, .inr rfl, alone_done .., rfl, rfl,
      htree.imp_right fun h => ⟨h, hglance⟩⟩

/-! ## Answering -/

/-- What a discarded file leaves. -/
theorem node?_discard {path : String} (l : Location) :
    (Cache.discard t cwd path).node? l = t.node? l ∨
      resolve t cwd false path = .ok l ∧ (Cache.discard t cwd path).node? l = none := by
  unfold Cache.discard
  split
  · next t' hremove =>
    obtain ⟨place, node, hplace, hnode, hdirectory, rfl⟩ := removeFile_spec hremove
    by_cases hl : l = place
    · subst hl
      have hroot : t.node? l ≠ some .directory := fun hd =>
        hdirectory (Option.some.inj (hnode.symm.trans hd))
      exact .inr ⟨hplace, t.node?_erase_self (ne_root hroot)⟩
    · exact .inl (t.node?_erase_ne hl)
  · exact .inl rfl

/-- A glance finds a file expired only under a limit. -/
theorem expired_file_of_glance {path : String} {now limit : Int}
    (h : glance t cwd now limit path = .expired) :
    0 < limit ∧ ∃ f, fileAt t cwd path = some f ∧ isExpired now limit f.modified = true := by
  unfold glance at h
  split at h
  · cases h
  · split at h
    · next l f hstat =>
      split at h
      · next hexpired =>
        have hlimit := hexpired
        simp only [isExpired, Bool.and_eq_true, decide_eq_true_eq] at hlimit
        exact ⟨hlimit.1, f, by rw [fileAt, hstat], hexpired⟩
      · cases h
    · cases h

/-- What comes of a demand: it is answered without a question, or after one. -/
inductive Answered (d : Demand) (looked : Phase) (result : Except Failure String) :
    List (Demand × Except Failure Completion) → Prop where
  | found {content} (huses : usesCache d = true) (hlooked : looked = .done (.found (some content)))
      (hresult : result = .ok content) : Answered d looked result []
  | told {reply} (hmissed : usesCache d = true → looked = .done (.found none))
      (hresult : result = match reply with
        | .error cause => .error (.generation cause)
        | .ok c => .ok (kept c)) : Answered d looked result [(d, reply)]

namespace Answered

variable {looked : Phase} {result : Except Failure String}
  {asked : List (Demand × Except Failure Completion)}

theorem nil_iff (h : Answered d looked result asked) :
    asked = [] ↔ usesCache d = true ∧ ∃ content, looked = .done (.found (some content)) := by
  cases h with
  | found huses hlooked => exact ⟨fun _ => ⟨huses, _, hlooked⟩, fun _ => rfl⟩
  | told hmissed =>
    refine ⟨nofun, fun ⟨huses, content, hlooked⟩ => ?_⟩
    rw [hmissed huses] at hlooked
    cases hlooked

theorem once (h : Answered d looked result asked) (hne : asked ≠ []) :
    ∃ reply, asked = [(d, reply)] := by
  cases h with
  | found => exact absurd rfl hne
  | told => exact ⟨_, rfl⟩

theorem found_result (h : Answered d looked result asked) (content : String)
    (huses : usesCache d = true) (hlooked : looked = .done (.found (some content))) :
    result = .ok content := by
  cases h with
  | found _ hlooked' hresult =>
    rw [hlooked] at hlooked'
    cases hlooked'
    exact hresult
  | told hmissed =>
    rw [hmissed huses] at hlooked
    cases hlooked

theorem told_result (h : Answered d looked result asked) (c : Completion)
    (hasked : asked = [(d, .ok c)]) : result = .ok (kept c) := by
  cases h with
  | found => cases hasked
  | told _ hresult =>
    cases hasked
    exact hresult

/-- An answer fails as the provider did. -/
theorem error_iff (h : Answered d looked result asked) (f : PromptRunner.Failure) :
    result = .error f ↔ ∃ cause, asked = [(d, .error cause)] ∧ f = .generation cause := by
  cases h with
  | found _ _ hresult =>
    rw [hresult]
    constructor
    · nofun
    · rintro ⟨cause, hasked, -⟩
      cases hasked
  | @told reply _ hresult =>
    cases reply with
    | error cause =>
      rw [hresult]
      constructor
      · intro hf
        cases hf
        exact ⟨cause, rfl, rfl⟩
      · rintro ⟨cause', hasked, rfl⟩
        cases hasked
        rfl
    | ok c =>
      rw [hresult]
      constructor
      · nofun
      · rintro ⟨cause, hasked, -⟩
        cases hasked

end Answered

/-- Asking ends in an answer, and a failure changes nothing. -/
theorem answered_of_asking {moments : List Moment} (hlength : 6 ≤ moments.length) (t : Tree)
    (cwd : Location) (directory : String) (d : Demand) :
    ∃ result after reply,
      alone (answerer cwd directory d) moments t .asking = (after, .done (.answered result)) ∧
      calls (heard (answerer cwd directory d) moments t .asking) = [(d, reply)] ∧
      (result = match reply with
        | .error cause => .error (.generation cause)
        | .ok c => .ok (kept c)) ∧
      ∀ f, result = .error f → after = t := by
  obtain ⟨m, rest, rfl⟩ := List.exists_cons_of_length_pos (l := moments) (by omega)
  rw [List.length_cons] at hlength
  obtain ⟨hcalls, hend⟩ := asking_cases (p := answerer cwd directory d) (m := m) (t := t) rfl
    (show 5 ≤ rest.length by omega)
  cases hreply : m.ask (query d.model d.prompt) with
  | error cause =>
    rw [hreply] at hcalls hend
    exact ⟨_, t, .error cause, hend, hcalls, rfl, fun _ _ => rfl⟩
  | ok c =>
    rw [hreply] at hcalls hend
    exact ⟨_, _, .ok c, Prod.ext rfl hend, hcalls, rfl, nofun⟩

/-- A demand is answered after eight accesses. -/
theorem answered (cwd : Location) (directory : String) (t : Tree) (d : Demand)
    (world : Nat → Moment) :
    let moments := (List.range 8).map world
    let path := filePath directory d.model d.prompt
    ∃ result after,
      alone (answerer cwd directory d) moments t (Work.answer d).start =
        (after, .done (.answered result)) ∧
      Answered d (alone (looker cwd directory d) moments t .looking).2 result
        (calls (heard (answerer cwd directory d) moments t (Work.answer d).start)) ∧
      ∀ f, result = .error f → ∀ l, after.node? l = t.node? l ∨
        usesCache d = true ∧ 0 < d.limit ∧ resolve t cwd false path = .ok l ∧
          after.node? l = none ∧
          ∃ old, fileAt t cwd path = some old ∧
            isExpired (world 0).now d.limit old.modified = true := by
  intro moments path
  by_cases huses : usesCache d = true
  · have hstart : (Work.answer d).start = .looking := by simp only [Work.start, huses, if_true]
    rw [hstart]
    obtain ⟨found, t', left, hleft, hlooked, halone, hcalls, htree⟩ :=
      looking_cases (world 0) (world 1) ((List.range' 2 6).map world) t cwd directory d
    have hmoments : moments = world 0 :: world 1 :: (List.range' 2 6).map world := rfl
    rw [hmoments, halone, hcalls, hlooked]
    cases found with
    | some content =>
      simp only [continued]
      rw [alone_done, heard_done]
      exact ⟨_, t', rfl, .found huses rfl rfl, fun f hf => by cases hf⟩
    | none =>
      have hlength : 6 ≤ left.length := by rcases hleft with rfl | rfl <;> simp
      obtain ⟨result, after, reply, hend, hasked, hresult, hsame⟩ :=
        answered_of_asking hlength t' cwd directory d
      simp only [continued]
      rw [hasked]
      refine ⟨result, after, hend, .told (fun _ => rfl) hresult, fun f hf l => ?_⟩
      rw [hsame f hf]
      rcases htree with hkept | ⟨hdiscard, hglance⟩
      · rw [hkept]
        exact .inl rfl
      · rw [hdiscard]
        obtain ⟨hlimit, hold⟩ := expired_file_of_glance hglance
        rcases node?_discard l with hkept | ⟨hplace, hgone⟩
        · exact .inl hkept
        · exact .inr ⟨huses, hlimit, hplace, hgone, hold⟩
  · have hstart : (Work.answer d).start = .asking := by
      simp only [Work.start, huses, Bool.false_eq_true, if_false]
    rw [hstart]
    obtain ⟨result, after, reply, hend, hasked, hresult, hsame⟩ :=
      answered_of_asking (show 6 ≤ moments.length by simp [moments]) t cwd directory d
    rw [hasked]
    refine ⟨result, after, hend, .told (fun h => absurd h huses) hresult, fun f hf l => ?_⟩
    rw [hsame f hf]
    exact .inl rfl

/-- A demand asks nothing only where the cache may be used and holds an answer. -/
theorem asked_cases (ask : Ask) (s : Surroundings) (t : Tree) (directory : String)
    (d : Demand) :
    (generate ask s t directory d).asked = none ∧ usesCache d = true ∧
        (∃ content, (lookup t s.cwd s.now d.limit (filePath directory d.model d.prompt)).1 =
          some content) ∨
      (generate ask s t directory d).asked = some (query d.model d.prompt) ∧
        (usesCache d = true →
          (lookup t s.cwd s.now d.limit (filePath directory d.model d.prompt)).1 = none) := by
  by_cases huses : usesCache d = true
  · cases hlookup : (lookup t s.cwd s.now d.limit (filePath directory d.model d.prompt)).1 with
    | some content =>
      rw [generate_hit huses hlookup]
      exact .inl ⟨rfl, huses, content, rfl⟩
    | none =>
      rw [generate_miss huses hlookup]
      exact .inr ⟨rfl, fun _ => rfl⟩
  · rw [generate_without_cache (eq_false_of_ne_true huses)]
    exact .inr ⟨rfl, fun h => absurd h huses⟩

theorem Answered.asked_of_generate {result : Except PromptRunner.Failure String}
    {asked : List (Demand × Except PromptRunner.Failure Completion)} (ask : Ask) (s : Surroundings)
    (t : Tree) (directory : String)
    (h : Answered d (.done (.found
      (lookup t s.cwd s.now d.limit (filePath directory d.model d.prompt)).1)) result asked) :
    (generate ask s t directory d).asked = asked.head?.map fun _ => query d.model d.prompt := by
  rcases asked_cases ask s t directory d with
    ⟨hnone, huses, content, hfound⟩ | ⟨hsome, hmissed⟩
  · rw [hnone, h.nil_iff.2 ⟨huses, content, by rw [hfound]⟩]
    rfl
  · have hne : asked ≠ [] := by
      intro hnil
      obtain ⟨huses, content, hfound⟩ := h.nil_iff.1 hnil
      rw [hmissed huses] at hfound
      cases hfound
    obtain ⟨reply, hone⟩ := h.once hne
    rw [hsome, hone]
    rfl

/-- Whatever state the files are in, and whatever is refused at any access: a demand is answered
after eight accesses. The provider is asked nothing if the cache may be used and a lookup, with the
same accesses, finds an answer, which is then the answer; and it is asked once otherwise, and what
it says is the answer. So answering fails as the provider does and in no other way. When it fails,
all is as it was, but for a file of the key that was too old. Where nothing is refused, this is what
`generate` does. -/
theorem answer_whatever_the_cache (cwd : Location) (directory : String) (t : Tree) (d : Demand)
    (world : Nat → Moment) :
    let moments := (List.range 8).map world
    let path := filePath directory d.model d.prompt
    let looked := (alone (looker cwd directory d) moments t .looking).2
    let asked := calls (heard (answerer cwd directory d) moments t (Work.answer d).start)
    ∃ result after,
      alone (answerer cwd directory d) moments t (Work.answer d).start =
        (after, .done (.answered result)) ∧
      (asked = [] ↔ usesCache d = true ∧ ∃ content, looked = .done (.found (some content))) ∧
      (asked ≠ [] → ∃ reply, asked = [(d, reply)]) ∧
      (∀ content, usesCache d = true → looked = .done (.found (some content)) →
        result = .ok content) ∧
      (∀ c, asked = [(d, .ok c)] → result = .ok (kept c)) ∧
      (∀ f, result = .error f ↔ ∃ cause, asked = [(d, .error cause)] ∧ f = .generation cause) ∧
      (∀ f, result = .error f → ∀ l, after.node? l = t.node? l ∨
        usesCache d = true ∧ 0 < d.limit ∧ resolve t cwd false path = .ok l ∧
          after.node? l = none ∧
          ∃ old, fileAt t cwd path = some old ∧
            isExpired (world 0).now d.limit old.modified = true) ∧
      (∀ ask s, s.cwd = cwd → (∀ n, world n = calm ask s) →
        generate ask s t directory d =
          ⟨result, after, asked.head?.map fun _ => query d.model d.prompt⟩) := by
  intro moments path looked asked
  obtain ⟨result, after, hend, hcalls, hfailed⟩ := answered cwd directory t d world
  have hcalls : Answered d looked result asked := hcalls
  refine ⟨result, after, hend, ?_, ?_, ?_, ?_, ?_, hfailed, ?_⟩
  · exact hcalls.nil_iff
  · exact hcalls.once
  · exact hcalls.found_result
  · exact hcalls.told_result
  · exact hcalls.error_iff
  · intro ask s hcwd hworld
    have hmoments : moments = List.replicate 8 (calm ask s) := by
      simp only [moments, show world = fun _ => calm ask s from funext hworld, List.map_const',
        List.length_range]
    subst hcwd
    have hgenerate := generate_eq_alone ask s t directory d
    have hlookup := lookup_eq_alone (show (calm ask s).refusal = none from rfl) t s.cwd directory
      d.model d.prompt d.limit
    rw [← hmoments] at hgenerate hlookup
    have hlooked : looked = .done (.found
        (lookup t s.cwd s.now d.limit (filePath directory d.model d.prompt)).1) :=
      congrArg Prod.snd hlookup
    have houtcome := hend.symm.trans hgenerate
    simp only [Prod.mk.injEq, Phase.done.injEq, Result.answered.injEq] at houtcome
    obtain ⟨hafter, hresult⟩ := houtcome
    rw [hafter, hresult]
    rw [hlooked] at hcalls
    rw [← hcalls.asked_of_generate ask s t directory]

end PromptRunner.Sharing
