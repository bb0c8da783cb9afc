import PromptRunner.Proofs.Json.Records

/-!
# Another document in the place of one

A record is cut open at its first field: what stands in front of the document there and behind it is
a `Frame`, by name in an object or at the head of a list. Put together with a document again it is a
text, and if that is a record, then so it is with any other document that the field takes; what else
the members do to the record is the same (`RecordOf.refill`).

A frame may be cut as one likes, and the reader has cut the text in its own way. That the two ways
have the same names and values in the same order is what no two documents at one place come to
(`entries_of_sequence`), and whether members make a record hangs on nothing else
(`Filled.of_entries`). The same holds for the items of a list (`ListOf.of_items`).
-/

namespace PromptRunner.Json

variable {σ : Type} {known : List (FieldShape σ)} {seen : List String} {m : Meaning}
  {t : List Char}

/-! ## However a text is cut into parts -/

theorem Filled.of_entries {parts : List (Member × (σ → σ))} {members : List Member}
    (h : Filled known seen parts) (hspells : ∀ m ∈ members, Spells m.value.meaning m.value.text)
    (heq : members.map (·.entry) = (parts.map (·.1)).map (·.entry)) :
    ∃ parts' : List (Member × (σ → σ)), parts'.map (·.1) = members ∧
      parts'.map (·.2) = parts.map (·.2) ∧ Filled known seen parts' := by
  induction h generalizing members with
  | nil hall =>
    obtain rfl := List.map_eq_nil_iff.1 heq
    exact ⟨[], rfl, rfl, .nil hall⟩
  | @known seen name field part f parts hname hfield hnew htakes _ ih =>
    obtain ⟨member, members, rfl, hentry, hlater⟩ := List.map_eq_cons_iff.1 heq
    obtain ⟨hmember, hmembers⟩ := List.forall_mem_cons.1 hspells
    obtain ⟨htext, hvalue⟩ := Prod.mk.inj hentry
    obtain ⟨parts', rfl, hchanges, hparts⟩ := ih hmembers hlater
    refine ⟨(member, f) :: parts', rfl, by rw [List.map_cons, List.map_cons, hchanges],
      .known (htext.trans hname) hfield hnew ?_ hparts⟩
    rw [hvalue] at hmember ⊢
    rwa [hmember.unique (field.shape.spells htakes)]
  | @other seen name part parts hname hfield _ _ ih =>
    obtain ⟨member, members, rfl, hentry, hlater⟩ := List.map_eq_cons_iff.1 heq
    obtain ⟨hmember, hmembers⟩ := List.forall_mem_cons.1 hspells
    obtain ⟨htext, -⟩ := Prod.mk.inj hentry
    obtain ⟨parts', rfl, hchanges, hparts⟩ := ih hmembers hlater
    exact ⟨(member, id) :: parts', rfl, by rw [List.map_cons, List.map_cons, hchanges],
      .other (htext.trans hname) hfield hmember hparts⟩

theorem InOrder.of_texts {parts : List (Item × (σ → σ))} {items : List Item}
    (h : InOrder known parts) (hspells : ∀ i ∈ items, Spells i.meaning i.text)
    (heq : items.map (·.text) = (parts.map (·.1)).map (·.text)) :
    ∃ parts' : List (Item × (σ → σ)), parts'.map (·.1) = items ∧
      parts'.map (·.2) = parts.map (·.2) ∧ InOrder known parts' := by
  induction h generalizing items with
  | rest hrest =>
    obtain rfl := List.map_eq_nil_iff.1 heq
    exact ⟨[], rfl, rfl, .rest hrest⟩
  | @field field known part f parts htakes _ ih =>
    obtain ⟨item, items, rfl, htext, hlater⟩ := List.map_eq_cons_iff.1 heq
    obtain ⟨hitem, hitems⟩ := List.forall_mem_cons.1 hspells
    obtain ⟨parts', rfl, hchanges, hparts⟩ := ih hitems hlater
    refine ⟨(item, f) :: parts', rfl, by rw [List.map_cons, List.map_cons, hchanges],
      .field ?_ hparts⟩
    rw [htext] at hitem ⊢
    rwa [hitem.unique (field.shape.spells htakes)]

/-- A list of documents as it is written. -/
def listText (items : List Item) (behind : Blanks) : List Char :=
  '[' :: sequence Item.write true items (behind.1 ++ [']'])

theorem ListOf.of_items {L : Shape α} {xs : List α} {items : List Item} {behind : Blanks}
    (h : ListOf L m (listText items behind) xs) (hspells : ∀ i ∈ items, Spells i.meaning i.text) :
    ∃ parts : List (Item × α), parts.map (·.1) = items ∧ parts.map (·.2) = xs ∧
      ∀ p ∈ parts, L.takes p.1.meaning p.1.text p.2 := by
  generalize ht : listText items behind = t at h
  cases h with
  | @items parts behind' hparts =>
    have hspells' : ∀ i ∈ parts.map (·.1), Spells i.meaning i.text :=
      List.forall_mem_map.2 fun p hp => L.spells (hparts p hp)
    have htexts := texts_of_sequence hspells hspells' (show Blanks.none.1 ++
      sequence Item.write true items (behind.1 ++ [']']) =
        Blanks.none.1 ++ sequence Item.write true (parts.map (·.1)) (behind'.1 ++ [']'])
      from (List.cons.inj ht).2)
    clear ht hspells'
    induction parts generalizing items with
    | nil =>
      obtain rfl := List.map_eq_nil_iff.1 htexts
      exact ⟨[], rfl, rfl, nofun⟩
    | cons part parts ih =>
      obtain ⟨item, items, rfl, htext, hlater⟩ := List.map_eq_cons_iff.1 htexts
      obtain ⟨hitem, hitems⟩ := List.forall_mem_cons.1 hspells
      obtain ⟨hpart, hparts⟩ := List.forall_mem_cons.1 hparts
      obtain ⟨parts', rfl, hvalues, htakes⟩ := ih hitems hparts hlater
      refine ⟨(item, part.2) :: parts', rfl, by rw [List.map_cons, List.map_cons, hvalues],
        List.forall_mem_cons.2 ⟨?_, htakes⟩⟩
      show L.takes item.meaning item.text part.2
      rw [htext] at hitem ⊢
      rwa [hitem.unique (L.spells hpart)]

/-! ## Frames -/

/-- The same place, with this document. -/
def Item.holding (i : Item) (m : Meaning) (t : List Char) : Item :=
  { i with meaning := m, text := t }

def Member.holding (p : Member) (m : Meaning) (t : List Char) : Member :=
  { p with value := p.value.holding m t }

/-- A record without the document of its first field, which is called by a name. -/
inductive Frame (name : String) where
  | named (before : List Member) (part : Member) (after : List Member) (behind : Blanks)
      (hname : part.name.text = some name)
      (hbefore : ∀ m ∈ before, Spells m.value.meaning m.value.text)
      (hafter : ∀ m ∈ after, Spells m.value.meaning m.value.text)
  | listed (part : Item) (after : List Item) (behind : Blanks)
      (hafter : ∀ i ∈ after, Spells i.meaning i.text)

/-- The record with a document in its place. -/
def Frame.fill {name : String} (F : Frame name) (m : Meaning) (t : List Char) : List Char :=
  match F with
  | .named before part after behind _ _ _ =>
    '\x7b' :: sequence Member.write true (before ++ part.holding m t :: after)
      (behind.1 ++ ['\x7d'])
  | .listed part after behind _ => listText (part.holding m t :: after) behind

theorem Frame.exists_spells {name : String} (F : Frame name) (ht : Spells m t) :
    ∃ n, Spells n (F.fill m t) := by
  cases F with
  | named before part after behind _ hbefore hafter =>
    exact ⟨_, .object behind
      (List.forall_mem_append.2 ⟨hbefore, List.forall_mem_cons.2 ⟨ht, hafter⟩⟩)⟩
  | listed part after behind hafter =>
    exact ⟨_, .list behind (List.forall_mem_cons.2 ⟨ht, hafter⟩)⟩

theorem Filled.refill {field : FieldShape σ} {before after : List (Member × (σ → σ))}
    (part : Member) {f : σ → σ} (hfield : known.find? (·.name = field.name) = some field)
    (hname : part.name.text = some field.name)
    (h : Filled known seen (before ++ (part, f) :: after)) :
    field.shape.takes part.value.meaning part.value.text f ∧
      (∃ seen', field.name ∈ seen' ∧ Filled known seen' after) ∧
      ∀ (part' : Member) (f' : σ → σ), part'.name = part.name →
        field.shape.takes part'.value.meaning part'.value.text f' →
        Filled known seen (before ++ (part', f') :: after) := by
  induction before generalizing seen with
  | nil =>
    cases h with
    | known hn hk hnew htakes h =>
      obtain rfl := Option.some.inj (hname.symm.trans hn)
      obtain rfl := Option.some.inj (hfield.symm.trans hk)
      refine ⟨htakes, ⟨_, List.mem_cons_self, h⟩, fun part' f' hpart' htakes' => ?_⟩
      exact .known (by rw [hpart', hn]) hk hnew htakes' h
    | other hn hnone =>
      obtain rfl := Option.some.inj (hname.symm.trans hn)
      rw [hfield] at hnone
      cases hnone
  | cons p before ih =>
    cases h with
    | known hn hk hnew htakes h =>
      obtain ⟨hpart, hafter, hrefill⟩ := ih h
      exact ⟨hpart, hafter, fun part' f' hpart' htakes' =>
        .known hn hk hnew htakes (hrefill part' f' hpart' htakes')⟩
    | other hn hnone hspells h =>
      obtain ⟨hpart, hafter, hrefill⟩ := ih h
      exact ⟨hpart, hafter, fun part' f' hpart' htakes' =>
        .other hn hnone hspells (hrefill part' f' hpart' htakes')⟩

/-- What two records agree on, if every field keeps it so. -/
def Kept (known : List (FieldShape σ)) (R : σ → σ → Prop) : Prop :=
  ∀ k ∈ known, ∀ {m t f}, k.shape.takes m t f → ∀ x y, R x y → R (f x) (f y)

theorem Filled.rel_applied {R : σ → σ → Prop} (hR : Kept known R)
    {parts : List (Member × (σ → σ))} (h : Filled known seen parts) {x y : σ} (hxy : R x y) :
    R (applied (parts.map (·.2)) x) (applied (parts.map (·.2)) y) := by
  induction h generalizing x y with
  | nil => exact hxy
  | known _ hk _ htakes _ ih => exact ih (hR _ (List.mem_of_find?_eq_some hk) htakes x y hxy)
  | other _ _ _ _ ih => exact ih hxy

theorem InOrder.rel_applied {R : σ → σ → Prop} (hR : Kept known R)
    {parts : List (Item × (σ → σ))} (h : InOrder known parts) {x y : σ} (hxy : R x y) :
    R (applied (parts.map (·.2)) x) (applied (parts.map (·.2)) y) := by
  induction h generalizing x y with
  | rest => exact hxy
  | field htakes _ ih =>
    exact ih (fun k hk => hR k (List.mem_cons_of_mem _ hk)) (hR _ List.mem_cons_self htakes x y hxy)

theorem applied_append (fs gs : List (σ → σ)) (v : σ) :
    applied (fs ++ gs) v = applied gs (applied fs v) :=
  List.foldl_append

/-- A record with another document in the place of its first field is a record again, to which that
field does something else, and the others the same. -/
theorem RecordOf.refill {field : FieldShape σ} {others : List (FieldShape σ)} {start v : σ}
    {F : Frame field.name} {m' : Meaning} (hnames : ((field :: others).map (·.name)).Nodup)
    (h : RecordOf (field :: others) start m' (F.fill m t) v) (ht : Spells m t) :
    ∃ (f rest : σ → σ) (w : σ), field.shape.takes m t f ∧ v = rest (f w) ∧
      (∀ {β : Type} {get : σ → β}, OnlyBy (field :: others) field.name get →
        ∀ x, get (rest x) = get x) ∧
      (∀ {R : σ → σ → Prop}, Kept (field :: others) R → ∀ {x y}, R x y → R (rest x) (rest y)) ∧
      ∀ {n u g}, field.shape.takes n u g →
        ∃ n', RecordOf (field :: others) start n' (F.fill n u) (rest (g w)) := by
  have hfield : (field :: others).find? (·.name = field.name) = some field :=
    find_name hnames List.mem_cons_self
  generalize htext : F.fill m t = text at h
  cases F with
  | named before part after behind hname hbefore hafter =>
    cases h with
    | @object parts behind' hparts =>
      have hspells : ∀ p ∈ before ++ part.holding m t :: after,
          Spells p.value.meaning p.value.text :=
        List.forall_mem_append.2 ⟨hbefore, List.forall_mem_cons.2 ⟨ht, hafter⟩⟩
      have hentries := entries_of_sequence hspells hparts.spells (show Blanks.none.1 ++
        sequence Member.write true (before ++ part.holding m t :: after) _ =
          Blanks.none.1 ++ sequence Member.write true (parts.map (·.1)) _
        from (List.cons.inj htext).2)
      obtain ⟨parts', hcut, hchanges, hparts⟩ := hparts.of_entries hspells hentries
      obtain ⟨front, back, rfl, rfl, hback⟩ := List.map_eq_append_iff.1 hcut
      obtain ⟨⟨_, f⟩, back, rfl, rfl, rfl⟩ := List.map_eq_cons_iff.1 hback
      obtain ⟨htakes, ⟨seen, hseen, hafter⟩, hrefill⟩ :=
        hparts.refill (part.holding m t) hfield hname
      refine ⟨f, applied (back.map (·.2)), applied (front.map (·.2)) start, htakes, ?_,
        fun hget x => hafter.get_of_seen hget hseen x,
        fun hR => fun hxy => hafter.rel_applied hR hxy, fun {n u g} hg => ?_⟩
      · rw [← hchanges, List.map_append, applied_append]
        rfl
      · have hfilled := hrefill (part.holding n u) g rfl hg
        have hrecord := @RecordOf.object _ _ start _ behind hfilled
        simp only [List.map_append, applied_append] at hrecord
        exact ⟨_, hrecord⟩
    | list => exact absurd (List.cons.inj htext).1 (by decide)
  | listed part after behind hafter =>
    cases h with
    | object => exact absurd (List.cons.inj htext).1 (by decide)
    | @list parts behind' hparts =>
      have hspells : ∀ i ∈ part.holding m t :: after, Spells i.meaning i.text :=
        List.forall_mem_cons.2 ⟨ht, hafter⟩
      have htexts := texts_of_sequence hspells hparts.spells (show Blanks.none.1 ++
        sequence Item.write true (part.holding m t :: after) (behind.1 ++ [']']) =
          Blanks.none.1 ++ sequence Item.write true (parts.map (·.1)) (behind'.1 ++ [']'])
        from (List.cons.inj htext).2)
      obtain ⟨parts', hcut, hchanges, hparts⟩ := hparts.of_texts hspells htexts
      obtain ⟨⟨_, f⟩, back, rfl, rfl, rfl⟩ := List.map_eq_cons_iff.1 hcut
      cases hparts with
      | field htakes hback =>
        have hnot : ∀ k ∈ others, k.name ≠ field.name := fun k hk heq =>
          (List.nodup_cons.1 hnames).1 (List.mem_map.2 ⟨k, hk, heq⟩)
        refine ⟨f, applied (back.map (·.2)), start, htakes, ?_, fun hget x => ?_,
          fun hR => fun hxy => ?_, fun {n u g} hg => ?_⟩
        · rw [← hchanges]
          rfl
        · exact hback.get_of_not_mem (fun k hk => hget k (List.mem_cons_of_mem _ hk)) hnot x
        · exact hback.rel_applied (fun k hk => hR k (List.mem_cons_of_mem _ hk)) hxy
        · have hrefilled : InOrder (field :: others) ((part.holding n u, g) :: back) :=
            .field hg hback
          exact ⟨_, .list behind hrefilled⟩

/-- A field that has to be there is there. -/
theorem Filled.exists_field {field : FieldShape σ}
    (hfield : known.find? (·.name = field.name) = some field) (hrequired : field.required = true)
    {parts : List (Member × (σ → σ))} (h : Filled known seen parts) (hseen : field.name ∉ seen) :
    ∃ before part f after, parts = before ++ (part, f) :: after ∧
      part.name.text = some field.name ∧
      field.shape.takes part.value.meaning part.value.text f := by
  induction h with
  | nil hall => exact absurd (hall field (List.mem_of_find?_eq_some hfield) hrequired) hseen
  | @known seen name k part f parts hname hk hnew htakes _ ih =>
    by_cases heq : field.name = name
    · subst heq
      obtain rfl : field = k := Option.some.inj (hfield.symm.trans hk)
      exact ⟨[], part, f, parts, rfl, hname, htakes⟩
    · obtain ⟨before, part', f', after, rfl, hpart'⟩ := ih (by simp [heq, hseen])
      exact ⟨(part, f) :: before, part', f', after, rfl, hpart'⟩
  | @other seen name part parts _ _ _ _ ih =>
    obtain ⟨before, part', f', after, rfl, hpart'⟩ := ih hseen
    exact ⟨(part, id) :: before, part', f', after, rfl, hpart'⟩

/-- A record whose first field has to be there is a frame with a document in it. -/
theorem RecordOf.exists_frame {field : FieldShape σ} {others : List (FieldShape σ)}
    {start v : σ} (hnames : ((field :: others).map (·.name)).Nodup)
    (hrequired : field.required = true) (h : RecordOf (field :: others) start m t v) :
    ∃ (F : Frame field.name) (n : Meaning) (u : List Char) (f : σ → σ),
      t = F.fill n u ∧ field.shape.takes n u f := by
  have hfield : (field :: others).find? (·.name = field.name) = some field :=
    find_name hnames List.mem_cons_self
  cases h with
  | @object parts behind h =>
    have hspells := h.spells
    obtain ⟨before, part, f, after, rfl, hname, htakes⟩ :=
      h.exists_field hfield hrequired List.not_mem_nil
    rw [List.map_append, List.map_cons] at hspells ⊢
    obtain ⟨hbefore, hafter⟩ := List.forall_mem_append.1 hspells
    exact ⟨.named _ part _ behind hname hbefore (List.forall_mem_cons.1 hafter).2, _, _, f, rfl,
      htakes⟩
  | @list parts behind h =>
    have hspells := h.spells
    cases h with
    | rest hrest =>
      rw [hrest field List.mem_cons_self] at hrequired
      cases hrequired
    | @field _ _ part f parts htakes _ =>
      exact ⟨.listed part _ behind (List.forall_mem_cons.1 hspells).2, _, _, f, rfl, htakes⟩

end PromptRunner.Json
