import PromptRunner.Proofs.Json.Refilling
import PromptRunner.Proofs.Provider.Answers

/-!
# An answer is its text blocks

An answer in the third format is a row of blocks, and some of them are no text: a thought, a call of
a tool, whatever else the vendor may come to send. A block is read by the type that it says, which
may stand anywhere in it, so that nothing is known of it until all of it has been read.

To say that such a block changes nothing, a body is cut open at its content (`Reply`): the frame
around it, and the items in it, with every blank where it was. Every body that is read can be cut so
(`exists_reply`), and what is read of it is told by its items (`Reply.of_written`), because the
other member of an answer is set by no item and sets none. So a block is put in by putting one more
item there, and the texts of the answer are those of its items, by what they mean and not by how
they were read (`blockText?_eq`).
-/

namespace PromptRunner

open PromptRunner.Json

variable {d : Nat} {m : Meaning} {t : List Char} {v : Value}

namespace Provider.Messages

/-! ## Blocks -/

/-- The text of a text block, by what it means: an object that says so, or the same as a list. -/
def blockText? : Meaning → Option String
  | .object members =>
    if ((Meaning.object members).member? "type").bind Meaning.text? = some "text" then
      ((Meaning.object members).member? "text").bind Meaning.text?
    else none
  | .list [kind, text] => if kind.text? = some "text" then text.text? else none
  | _ => none

theorem lookup_of_only? {members : List (String × Value)} {name : String}
    (h : only? members name = some v) : members.lookup name = some v := by
  unfold only? at h
  split at h
  · next n w hfilter =>
    cases h
    induction members with
    | nil => cases hfilter
    | cons member members ih =>
      rw [List.lookup_cons]
      by_cases hname : member.1 = name
      · rw [List.filter_cons_of_pos (by simpa using hname)] at hfilter
        obtain ⟨rfl, -⟩ := List.cons.inj hfilter
        rw [hname, beq_self_eq_true]
      · rw [List.filter_cons_of_neg (by simpa using hname)] at hfilter
        rw [beq_eq_false_iff_ne.2 (Ne.symm hname)]
        exact ih hfilter
  · cases h

theorem denotes_string {s : String} (h : Denotes d m t (.string s)) : m = .string (some s) := by
  cases h
  rfl

/-- The only value of a name is also the first that the document has under it. -/
theorem member?_of_only? {members : List (Member × String × Value)} {name s : String}
    (hname : ∀ m ∈ members, m.1.name.text = some m.2.1)
    (h : ∀ m ∈ members, Denotes d m.1.value.meaning m.1.value.text m.2.2)
    (honly : only? (members.map (·.2)) name = some (.string s)) :
    (Meaning.object ((members.map (·.1)).map (·.meaning))).member? name =
      some (.string (some s)) := by
  obtain ⟨m, t, hm, ht⟩ := lookup_denoted hname h (lookup_of_only? honly)
  rw [← denotes_string ht]
  exact hm

theorem blockOf?_list {vs : List Value} {b : Block} (h : blockOf? (.list vs) = some b) :
    (∃ kind, vs = [.string kind] ∧ b = none) ∨
      ∃ text, vs = [.string "text", .string text] ∧ b = some text := by
  unfold blockOf? at h
  split at h
  · next heq => cases heq
  · next kind heq =>
    split at h
    · cases h
    · cases heq
      cases h
      exact .inl ⟨kind, rfl, rfl⟩
  · next kind text heq =>
    split at h
    · next hkind =>
      subst hkind
      cases heq
      cases h
      exact .inr ⟨text, rfl, rfl⟩
    · cases h
  · cases h

/-- What the reader takes a block for is its text by what it means. -/
theorem blockText?_eq {b : Block} (h : Denotes d m t v) (hb : blockOf? v = some b) :
    blockText? m = b := by
  cases h with
  | @object d members behind hname h =>
    rw [blockOf?] at hb
    split at hb
    · next kind hkind =>
      have htype := member?_of_only? hname h hkind
      split at hb
      · next htext =>
        subst htext
        split at hb
        · next text htext =>
          cases hb
          rw [blockText?, htype, member?_of_only? hname h htext]
          exact if_pos rfl
        · cases hb
      · next hother =>
        cases hb
        rw [blockText?, htype]
        exact if_neg fun heq => hother (Option.some.inj heq)
    · cases hb
  | @list d items behind h =>
    rcases blockOf?_list hb with ⟨kind, hitems, rfl⟩ | ⟨text, hitems, rfl⟩
    · obtain ⟨i, items, rfl, hi, hnil⟩ := List.map_eq_cons_iff.1 hitems
      obtain rfl := List.map_eq_nil_iff.1 hnil
      rfl
    · obtain ⟨i, items, rfl, hi, hitems⟩ := List.map_eq_cons_iff.1 hitems
      obtain ⟨j, items, rfl, hj, hnil⟩ := List.map_eq_cons_iff.1 hitems
      obtain rfl := List.map_eq_nil_iff.1 hnil
      obtain ⟨hi', hj', -⟩ := List.forall_mem_cons.1 h |>.imp_right List.forall_mem_cons.1
      rw [hi] at hi'
      rw [hj] at hj'
      show blockText? (.list [i.1.meaning, j.1.meaning]) = some text
      rw [denotes_string hi', denotes_string hj']
      rfl
  | _ => cases hb

/-! ## Answers -/

/-- An answer as it is written, cut open at the items of its content. -/
structure Reply where
  frame : Frame "content"
  before : Blanks
  items : List Item
  spelled : ∀ i ∈ items, Spells i.meaning i.text
  close : Blanks
  behind : Blanks

namespace Reply

variable {a : Reply} {x : Answer}

def text (a : Reply) : List Char :=
  a.before.1 ++
    (a.frame.fill (.list (a.items.map (·.meaning))) (listText a.items a.close) ++ a.behind.1)

/-- The texts of its text blocks, in order. -/
def texts (a : Reply) : List String := a.items.filterMap fun i => blockText? i.meaning

/-- One more item at a place of its content. -/
def insert (a : Reply) (k : Nat) (new : Item) (h : Spells new.meaning new.text) : Reply where
  frame := a.frame
  before := a.before
  items := a.items.take k ++ new :: a.items.drop k
  spelled := by
    have hspelled := a.spelled
    rw [← List.take_append_drop k a.items] at hspelled
    obtain ⟨hfront, hback⟩ := List.forall_mem_append.1 hspelled
    exact List.forall_mem_append.2 ⟨hfront, List.forall_mem_cons.2 ⟨h, hback⟩⟩
  close := a.close
  behind := a.behind

end Reply

theorem answerFields_names : ((answerFields d).map (·.name)).Nodup :=
  (by decide : ["content", "usage"].Nodup)

/-- The documents that are answers are all of this form. -/
theorem exists_reply {x : Answer} {text : List Char} (h : Written (Answers d) text m x) :
    ∃ a : Reply, text = a.text := by
  obtain ⟨before, behind, t, rfl, ht⟩ := h
  obtain ⟨F, n, u, f, rfl, blocks, hblocks, -⟩ :=
    RecordOf.exists_frame answerFields_names rfl ht
  cases hblocks with
  | @items items close h =>
    have hspelled : ∀ i ∈ items.map (·.1), Spells i.meaning i.text :=
      List.forall_mem_map.2 fun i hi => (Blocks d).spells (h i hi)
    exact ⟨⟨F, before, items.map (·.1), hspelled, close, behind⟩, rfl⟩

/-- The blocks of an answer are its items, and with other items it is the answer with their
blocks. -/
theorem Reply.of_written {a : Reply} {x : Answer} (h : Written (Answers d) a.text m x) :
    ∃ parts : List (Item × Block), parts.map (·.1) = a.items ∧ parts.map (·.2) = x.blocks ∧
      (∀ p ∈ parts, (Blocks d).takes p.1.meaning p.1.text p.2) ∧
      ∀ (b : Reply) (parts' : List (Item × Block)), b.frame = a.frame →
        parts'.map (·.1) = b.items →
        (∀ p ∈ parts', (Blocks d).takes p.1.meaning p.1.text p.2) →
        ∃ m', Written (Answers d) b.text m' { x with blocks := parts'.map (·.2) } := by
  obtain ⟨before, behind, t, htext, ht⟩ := h
  -- the two ways to cut the whole text are one
  have hlist : Spells (.list (a.items.map (·.meaning))) (listText a.items a.close) :=
    .list a.close a.spelled
  obtain ⟨n, hn⟩ := a.frame.exists_spells hlist
  obtain ⟨rfl, -⟩ := hn.ends_together ((Answers d).spells ht) (leaves_blanks a.behind)
    (leaves_blanks behind) htext
  obtain ⟨_, rest, w, ⟨blocks, hblocks, rfl⟩, rfl, hget, hkept, hrefill⟩ :=
    RecordOf.refill answerFields_names ht hlist
  have hanswer : ∀ bs : List Block, rest { w with blocks := bs } =
      ⟨bs, (rest { w with blocks := blocks }).counts⟩ := by
    intro bs
    have hbs : (rest { w with blocks := bs }).blocks = bs :=
      @hget _ Answer.blocks (.left (FieldShape.keeps fun _ _ => rfl)) _
    have hcounts : (rest { w with blocks := bs }).counts =
        (rest { w with blocks := blocks }).counts := by
      refine hkept (R := fun x y => x.counts = y.counts) ?_ rfl
      intro k hk m t f hf x y hxy
      rcases List.mem_pair.1 hk with rfl | rfl
      · obtain ⟨_, -, rfl⟩ := hf
        exact hxy
      · obtain ⟨_, -, rfl⟩ := hf
        rfl
    rw [← hcounts]
    exact congrArg (Answer.mk · _) hbs
  obtain ⟨parts, hitems, hvalues, htakes⟩ := hblocks.of_items a.spelled
  refine ⟨parts, hitems, ?_, htakes, ?_⟩
  · rw [hanswer blocks]
    exact hvalues
  · intro b parts' hframe hitems' htakes'
    have hlist' := ListOf.items (L := Blocks d) b.close htakes'
    obtain ⟨n', hn'⟩ := hrefill ⟨_, hlist', rfl⟩
    rw [hitems', hanswer (parts'.map (·.2)), ← hframe] at hn'
    exact ⟨n', b.before, b.behind, _, rfl, hn'⟩

theorem Reply.texts_eq {a : Reply} {x : Answer} (h : Written (Answers d) a.text m x) :
    x.blocks.filterMap id = a.texts := by
  obtain ⟨parts, hitems, hblocks, htakes, -⟩ := Reply.of_written h
  rw [← hblocks, Reply.texts, ← hitems, List.filterMap_map, List.filterMap_map]
  refine List.filterMap_congr fun p hp => ?_
  obtain ⟨v, hv, hb⟩ := htakes p hp
  exact (blockText?_eq hv hb).symm

/-- One more item that the reader takes for no text changes nothing else. -/
theorem Reply.written_insert {a : Reply} {x : Answer} (h : Written (Answers d) a.text m x) (k : Nat)
    {new : Item} (hnew : (Blocks d).takes new.meaning new.text none) :
    ∃ m', Written (Answers d) (a.insert k new ((Blocks d).spells hnew)).text m'
      { x with blocks := x.blocks.take k ++ none :: x.blocks.drop k } := by
  obtain ⟨parts, hitems, hblocks, htakes, hrefill⟩ := Reply.of_written h
  rw [← List.take_append_drop k parts] at htakes
  obtain ⟨hfront, hback⟩ := List.forall_mem_append.1 htakes
  have hwritten := hrefill (a.insert k new ((Blocks d).spells hnew))
    (parts.take k ++ (new, none) :: parts.drop k) rfl
    (by simp only [Reply.insert, ← hitems, List.map_append, List.map_cons, List.map_take,
      List.map_drop])
    (List.forall_mem_append.2 ⟨hfront, List.forall_mem_cons.2 ⟨hnew, hback⟩⟩)
  simpa only [← hblocks, List.map_append, List.map_cons, List.map_take, List.map_drop] using
    hwritten

/-- A block of another kind: an object that says its type once, and that it is not text, and may
hold anything else that the reader of values takes inside two brackets. -/
structure OtherBlock (i : Item) : Prop where
  exists_members : ∃ members kind, Denotes (depthLimit - 2) i.meaning i.text (.object members) ∧
    members.filter (·.1 = "type") = [("type", .string kind)] ∧ kind ≠ "text"

theorem OtherBlock.takes {i : Item} (h : OtherBlock i) :
    (Blocks (depthLimit - 2)).takes i.meaning i.text none := by
  obtain ⟨members, kind, hdenotes, htype, hkind⟩ := h.exists_members
  refine ⟨_, hdenotes, ?_⟩
  simp only [blockOf?, only?, htype, if_neg hkind]

theorem OtherBlock.spells {i : Item} (h : OtherBlock i) : Spells i.meaning i.text :=
  (Blocks _).spells h.takes

theorem readWhole_answer_iff {text : List Char} {x : Answer} :
    readWhole readAnswer text = .ok x ↔ ∃ m, Written (Answers (depthLimit - 2)) text m x :=
  (readsExactly_answer (d := depthLimit - 2)).whole

end Provider.Messages

namespace Provider

open Messages

variable {p : Provider} {q : Query} {r : Web.WebRequest} {network : Web.Network} {status : Nat}
  {body : Text.Bytes} {x : Answer}

theorem readSuccess_answer (hvendor : p.vendor = .anthropic)
    (hread : readWhole readAnswer (bodyText body) = .ok x) :
    p.readSuccess body = some (x.text?, x.counts.map (·.usage)) := by
  simp only [readSuccess, hvendor, hread]

theorem of_readSuccess (hvendor : p.vendor = .anthropic) (h : (p.readSuccess body).isSome) :
    ∃ x, readWhole readAnswer (bodyText body) = .ok x := by
  unfold readSuccess at h
  rw [hvendor] at h
  simp only at h
  split at h
  · next x hread => exact ⟨x, hread⟩
  · cases h

theorem chat_answer (hvendor : p.vendor = .anthropic) (hprepare : p.prepare q = .ok r)
    (hanswer : network r = .answered status (some body)) (hsuccess : Web.isSuccess status = true)
    (hread : readWhole readAnswer (bodyText body) = .ok x) :
    p.chat network q =
      match x.blocks.filterMap id with
      | [] => .error (.provider "No text content in Anthropic response")
      | texts => .ok ⟨String.join texts, x.counts.map (·.usage)⟩ := by
  have hbody := readSuccess_answer hvendor hread
  simp only [chat_eq, hprepare, hanswer, conclude, hsuccess, if_true, Option.bind_some, hbody,
    Answer.text?, emptyAnswer, hvendor]
  cases x.blocks.filterMap id <;> rfl

/-- A success that can be read is answered with the texts of its text blocks one behind the other,
and is a failure exactly if there is none. A block of another kind at any place changes nothing. -/
theorem answer_is_its_text_blocks (hvendor : p.vendor = .anthropic) (hprepare : p.prepare q = .ok r)
    (hanswer : network r = .answered status (some body)) (hsuccess : Web.isSuccess status = true)
    (hread : (p.readSuccess body).isSome) :
    (∃ a : Reply, bodyText body = a.text) ∧
      ∀ a : Reply, bodyText body = a.text →
        ((p.chat network q).map (·.content) =
          if a.texts = [] then .error (.provider "No text content in Anthropic response")
          else .ok (String.join a.texts)) ∧
        ∀ (k : Nat) (new : Item) (hnew : OtherBlock new) (network' : Web.Network)
          (body' : Text.Bytes), network' r = .answered status (some body') →
          bodyText body' = (a.insert k new hnew.spells).text →
          p.chat network' q = p.chat network q := by
  obtain ⟨x, hread⟩ := of_readSuccess hvendor hread
  obtain ⟨m, hwritten⟩ := readWhole_answer_iff.1 hread
  have hchat := chat_answer hvendor hprepare hanswer hsuccess hread
  constructor
  · exact exists_reply hwritten
  · intro a ha
    rw [ha] at hwritten
    refine ⟨?_, fun k new hnew network' body' hanswer' hbody' => ?_⟩
    · rw [hchat, Reply.texts_eq hwritten]
      cases a.texts <;> rfl
    · have hwritten' := Reply.written_insert hwritten k hnew.takes
      rw [← hbody'] at hwritten'
      rw [hchat, chat_answer hvendor hprepare hanswer' hsuccess (readWhole_answer_iff.2 hwritten')]
      have hsame : (x.blocks.take k ++ none :: x.blocks.drop k).filterMap id =
          x.blocks.filterMap id := by
        rw [List.filterMap_append, List.filterMap_cons_none rfl, ← List.filterMap_append,
          List.take_append_drop]
      rw [hsame]

namespace Messages

/-- A text that needs no escapes, as an item and as a member. -/
def plainItem (text : String) (h : text.toList.all isPlain = true) : Item :=
  ⟨.none, .string (some text), (Marked.plain text h).write [], .none⟩

def plainMember (name text : String) (hname : name.toList.all isPlain = true)
    (htext : text.toList.all isPlain = true) : Member :=
  ⟨.none, Marked.plain name hname, .none, plainItem text htext⟩

def objectItem (members : List Member) : Item :=
  ⟨.none, .object (members.map (·.meaning)),
    '\x7b' :: sequence Member.write true members ['\x7d'], .none⟩

/-- An answer of one text block. -/
def greeting : Reply where
  frame := .named [] (.tight (.plain "content" rfl) .null "") [] .none rfl nofun nofun
  before := .none
  items := [objectItem [plainMember "type" "text" rfl rfl, plainMember "text" "hi" rfl rfl]]
  spelled := by
    have hmember : ∀ name text hname htext, Spells (plainMember name text hname htext).value.meaning
        (plainMember name text hname htext).value.text :=
      fun _ _ _ htext => .string (.plain _ htext)
    refine List.forall_mem_singleton.2 (.object .none ?_)
    exact List.forall_mem_cons.2 ⟨hmember _ _ _ _, List.forall_mem_singleton.2 (hmember _ _ _ _)⟩
  close := .none
  behind := .none

def picture : Item := objectItem [plainMember "type" "image" rfl rfl]

theorem otherBlock_picture : OtherBlock picture where
  exists_members := by
    have hobject : Denotes (depthLimit - 2) picture.meaning picture.text
        (.object [("type", .string "image")]) :=
      @Denotes.object 124 [(plainMember "type" "image" rfl rfl, "type", .string "image")] .none
        (List.forall_mem_singleton.2 rfl)
        (List.forall_mem_singleton.2 (.string (Marked.plain "image" rfl) rfl))
    exact ⟨_, "image", hobject, rfl, by decide⟩

end Messages

theorem a_picture_changes_nothing :
    (⟨.anthropic, some "k", "http://127.0.0.1:9", "m"⟩ : Provider).chat
        (fun _ => .answered 200 (some (Text.encode greeting.text))) ⟨[], none, ⟨none, none⟩⟩ =
        .ok ⟨"hi", none⟩ ∧
      (⟨.anthropic, some "k", "http://127.0.0.1:9", "m"⟩ : Provider).chat
        (fun _ => .answered 200
          (some (Text.encode (greeting.insert 0 picture otherBlock_picture.spells).text)))
        ⟨[], none, ⟨none, none⟩⟩ = .ok ⟨"hi", none⟩ := by
  have hchat : (⟨.anthropic, some "k", "http://127.0.0.1:9", "m"⟩ : Provider).chat
      (fun _ => .answered 200 (some (Text.encode greeting.text))) ⟨[], none, ⟨none, none⟩⟩ =
      .ok ⟨"hi", none⟩ := by decide +kernel
  refine ⟨hchat, ?_⟩
  cases hprepare : (⟨.anthropic, some "k", "http://127.0.0.1:9", "m"⟩ : Provider).prepare
      ⟨[], none, ⟨none, none⟩⟩ with
  | error e =>
    rw [chat_eq, hprepare] at hchat
    cases hchat
  | ok r =>
    have hsuccess : Web.isSuccess 200 = true := rfl
    have hreadable : ((⟨.anthropic, some "k", "http://127.0.0.1:9", "m"⟩ : Provider).readSuccess
        (Text.encode greeting.text)).isSome := by decide +kernel
    obtain ⟨-, hanswer⟩ := @answer_is_its_text_blocks _ _ r
      (fun _ => .answered 200 (some (Text.encode greeting.text))) 200 _ rfl hprepare rfl hsuccess
      hreadable
    obtain ⟨-, hother⟩ := hanswer greeting (by decide +kernel)
    rw [← hchat]
    exact hother 0 picture otherBlock_picture _ _ rfl (by decide +kernel)

end Provider

end PromptRunner
