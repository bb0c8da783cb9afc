import PromptRunner.Proofs.Answer.Trimming
import PromptRunner.Proofs.CommandLine.Pipeline
import PromptRunner.Proofs.Session

/-!
# The program of a reply

Between the reply of a provider and the program that a run comes to, the reply is trimmed, and it
may be kept and found again by later calls. Neither matters to the program. A run that asks comes to
the program of the reply as it was given, and what it keeps has the same program; and in a session
that starts from nothing every answer, found or asked for, has the program of what the provider said
to the same key.

For the session it is enough to follow the memory that it answers as: all that is remembered was
said, and a call adds nothing but what is said to it.
-/

namespace PromptRunner.Generation

open PromptRunner.Files

variable {ask : Ask} {s : Surroundings} {t : Tree} {directory : String} {d : Demand}

/-- A step that asks hands on what it asked for, and keeps that or nothing. -/
theorem generate_asked (h : (generate ask s t directory d).asked ≠ none) :
    (generate ask s t directory d).result = asking ask d ∧
      ((generate ask s t directory d).tree = t ∨ ∃ looked,
        (generate ask s t directory d).tree = (keeping ask s looked directory d).2) := by
  cases huses : usesCache d with
  | false =>
    rw [generate_without_cache huses]
    exact ⟨rfl, .inl rfl⟩
  | true =>
    cases hlookup : (Cache.lookup t s.cwd s.now d.limit
        (Cache.filePath directory d.model d.prompt)).1 with
    | some answer =>
      rw [generate_hit huses hlookup] at h
      exact absurd rfl h
    | none =>
      rw [generate_miss huses hlookup]
      exact ⟨rfl, .inr ⟨_, rfl⟩⟩

end PromptRunner.Generation

namespace PromptRunner.Session

open PromptRunner.Files PromptRunner.Cache PromptRunner.Generation PromptRunner.Provider

variable {cwd : Location} {directory : String} {t : Tree} {calls : List Call} {m : Memory}
  {c : Call} {key : String × String} {answer : String}

/-! ## Answers of a session -/

/-- An answer is what the provider said to a key in one of some calls, trimmed. -/
def Said (calls : List Call) (key : String × String) (answer : String) : Prop :=
  ∃ c ∈ calls, c.key = key ∧ ∃ completion, c.ask c.question = .ok completion ∧
    answer = Text.trimmed completion.content

/-- All that is remembered was said in one of some calls. -/
def Sourced (calls : List Call) (m : Memory) : Prop :=
  ∀ key held, m key = some held → Said calls key held.1

theorem Sourced.update (h : Sourced calls m) {held : Option (String × Int)}
    (hheld : ∀ pair, held = some pair → Said calls key pair.1) :
    Sourced calls (Function.update m key held) := by
  intro other pair hpair
  by_cases hsame : other = key
  · subst hsame
    rw [Function.update_self] at hpair
    exact hheld pair hpair
  · rw [Function.update_of_ne hsame] at hpair
    exact h other pair hpair

theorem said_of_find (h : Sourced calls m) (hfind : m.find c = some answer) :
    Said calls c.key answer := by
  unfold Memory.find at hfind
  split at hfind
  · next held written hheld =>
    split at hfind
    · cases hfind
      exact h c.key _ hheld
    · cases hfind
  · cases hfind

/-- A call answers what was said, and remembers nothing else. -/
theorem sourced_step (h : Sourced calls m) (hc : c ∈ calls) (written : Bool) :
    Sourced calls (m.step c written).2 ∧
      ∀ answer, (m.step c written).1.result = .ok answer → Said calls c.key answer := by
  have hsaid : ∀ completion, c.ask c.question = .ok completion →
      Said calls c.key (Text.trimmed completion.content) :=
    fun completion hasked => ⟨c, hc, rfl, completion, hasked, rfl⟩
  unfold Memory.step
  split
  · cases hasked : c.ask c.question with
    | error f => exact ⟨h, nofun⟩
    | ok completion =>
      refine ⟨h, fun answer hanswer => ?_⟩
      cases hanswer
      exact hsaid completion hasked
  · cases hfind : m.find c with
    | some found =>
      refine ⟨h, fun answer hanswer => ?_⟩
      cases hanswer
      exact said_of_find h hfind
    | none =>
      cases hasked : c.ask c.question with
      | error f => exact ⟨h.update nofun, nofun⟩
      | ok completion =>
        refine ⟨h.update fun pair hpair => ?_, fun answer hanswer => ?_⟩
        · cases written with
          | true =>
            cases hpair
            exact hsaid completion hasked
          | false => cases hpair
        · cases hanswer
          exact hsaid completion hasked

/-- The answers of a session were said in it, if what was remembered before was. -/
theorem said_of_replies (h : Sourced calls m) (rest : List (Call × Bool))
    (hrest : ∀ pair ∈ rest, pair.1 ∈ calls) {reply : Reply}
    (hreply : (c, reply) ∈ (rest.map (·.1)).zip (m.replies rest))
    (hanswer : reply.result = .ok answer) : Said calls c.key answer := by
  induction rest generalizing m with
  | nil => cases hreply
  | cons pair rest ih =>
    obtain ⟨hfirst, hrest⟩ := List.forall_mem_cons.1 hrest
    obtain ⟨hnext, hsaid⟩ := sourced_step h hfirst pair.2
    rw [Memory.replies, List.map_cons, List.zip_cons_cons, List.mem_cons] at hreply
    rcases hreply with heq | hlater
    · cases heq
      exact hsaid answer hanswer
    · exact ih hnext hrest hlater

theorem length_writings : (writings cwd directory t calls).length = calls.length := by
  induction calls generalizing t with
  | nil => rfl
  | cons c calls ih => rw [writings, List.length_cons, List.length_cons, ih]

/-- From a vacant directory, every answer of a session was said in it. -/
theorem said_of_vacant (hvacant : Vacant t cwd directory)
    (hdistinct : Distinct directory (calls.map Call.key)) {reply : Reply}
    (hreply : (c, reply) ∈ calls.zip (replies cwd directory t calls))
    (hanswer : reply.result = .ok answer) : Said calls c.key answer := by
  rw [replies_eq (m := fun _ => none) hdistinct (fun _ hc => List.mem_map_of_mem hc)
    fun key _ => hvacant key.1 key.2] at hreply
  have hcalls : (calls.zip (writings cwd directory t calls)).map (·.1) = calls :=
    List.map_fst_zip (Nat.le_of_eq length_writings.symm)
  refine said_of_replies (m := fun _ => none) nofun (calls.zip (writings cwd directory t calls))
    (fun pair hpair => (List.of_mem_zip hpair).1) ?_ hanswer
  rw [hcalls]
  exact hreply

theorem Said.program (h : Said calls key answer) :
    ∃ c ∈ calls, c.key = key ∧ ∃ completion, c.ask c.question = .ok completion ∧
      Answer.extractCode answer = Answer.extractCode completion.content := by
  obtain ⟨c, hc, hkey, completion, hasked, rfl⟩ := h
  exact ⟨c, hc, hkey, completion, hasked, Answer.extractCode_trimmed completion.content⟩

end PromptRunner.Session

namespace PromptRunner.CommandLine

open PromptRunner.Files PromptRunner.Generation PromptRunner.Session

variable {w : World} {t made : Tree} {i : Invocation} {s : Settings} {r : Request}

/-! ## Trimming and the program -/

/-- Trimming an answer leaves its program. So a run that asks comes to the program of the reply and
keeps an entry with the same program, and every answer of a session that starts from nothing has the
program of a reply to its key. -/
theorem trimming_keeps_the_program :
    (∀ answer, Answer.extractCode (Text.trimmed answer) = Answer.extractCode answer) ∧
    (∀ (w : World) (t : Tree) (i : Invocation) (s : Settings) (r : Request) (made : Tree)
        (completion : Provider.Completion), Ready w t i s r made →
      (Provider.ofSettings s (modelOf i s)).chat w.network (query (modelOf i s) r.text) =
        .ok completion →
      (outcomeOf w t i s r made).asked ≠ none →
      Produces w t i s r (outcomeOf w t i s r made).tree
          (Answer.extractCode completion.content) ∧
        ((outcomeOf w t i s r made).tree = made ∨ ∃ looked entry,
          Answer.extractCode entry.content = Answer.extractCode completion.content ∧
          (outcomeOf w t i s r made).tree =
            (Cache.store looked w.surroundings.cwd w.surroundings.now w.surroundings.names
              (Cache.filePath (cacheOf w t s) (modelOf i s) r.text) entry).2)) ∧
    ∀ (cwd : Location) (directory : String) (t : Tree) (calls : List Call),
      Cache.Vacant t cwd directory → Distinct directory (calls.map Call.key) →
      ∀ c reply answer, (c, reply) ∈ calls.zip (replies cwd directory t calls) →
        reply.result = .ok answer →
        ∃ c' ∈ calls, c'.key = c.key ∧ ∃ completion, c'.ask c'.question = .ok completion ∧
          Answer.extractCode answer = Answer.extractCode completion.content := by
  refine ⟨Answer.extractCode_trimmed, fun w t i s r made completion hready hchat hasks => ?_,
    fun cwd directory t calls hvacant hdistinct c reply answer hreply hanswer =>
      (said_of_vacant hvacant hdistinct hreply hanswer).program⟩
  obtain ⟨hresult, htree⟩ := generate_asked hasks
  have htext : (outcomeOf w t i s r made).result = .ok (kept completion) := by
    rw [outcomeOf, hresult, asking]
    simp only [demandOf, hchat]
  refine ⟨⟨made, _, hready, htext, rfl, Answer.extractCode_trimmed _⟩, ?_⟩
  rcases htree with hsame | ⟨looked, hkept⟩
  · exact .inl hsame
  · refine .inr ⟨looked, entryOf w.surroundings (demandOf i s r) completion,
      Answer.extractCode_trimmed _, ?_⟩
    rw [outcomeOf, hkept, keeping]
    simp only [demandOf, hchat]

/-- A block that is not closed, in a margin of blanks. -/
def margins : String := "\u2003\n ```py\n x = 1 \n\u00a0\n"

/-- The same is asked for twice, and the second time it is found. -/
def twice : List Call := [calling "m" "p" 0 7 margins, calling "m" "p" 0 8 "two"]

theorem replies_twice :
    replies [] "cache" .empty twice =
      [⟨.ok "```py\n x = 1", some (query "m" "p")⟩, ⟨.ok "```py\n x = 1", none⟩] := by
  have hdistinct : Distinct "cache" (twice.map Call.key) := by
    unfold Distinct
    decide +kernel
  rw [replies_eq hdistinct (fun _ hc => List.mem_map_of_mem hc) fun key _ =>
    vacant_cache key.1 key.2]
  decide +kernel

/-- A block in a margin has its program without it; a run comes to the program of a reply with a
blank before it; and what is found of the block is the program of its reply. -/
theorem margins_do_not_matter :
    Answer.extractCode (Text.trimmed margins) = "x = 1" ∧
      Produces apprentice workroom keptInvocation workroomSettings ⟨"p", .inline⟩ workroom
        (Answer.extractCode " old") ∧
      ∃ c ∈ twice, c.key = ("m", "p") ∧ ∃ completion, c.ask c.question = .ok completion ∧
        Answer.extractCode "```py\n x = 1" = Answer.extractCode completion.content := by
  obtain ⟨htrim, hrun, hsession⟩ := trimming_keeps_the_program
  refine ⟨?_, ?_, ?_⟩
  · rw [htrim]
    decide
  · obtain ⟨made, text, hready, hresult, htree, -⟩ := produces_in_workroom
    have hproduces := (hrun _ _ _ _ _ made ⟨" old", none⟩ hready (by decide +kernel) ?_).1
    · rw [htree] at hproduces
      exact hproduces
    · rw [outcomeOf, generate_without_cache (by decide)]
      exact Option.some_ne_none _
  · refine hsession [] "cache" .empty twice vacant_cache ?_ (calling "m" "p" 0 8 "two")
      ⟨.ok "```py\n x = 1", none⟩ "```py\n x = 1" ?_ rfl
    · unfold Distinct
      decide +kernel
    · rw [replies_twice]
      exact .tail _ (.head _)

end PromptRunner.CommandLine
