import Mathlib.Data.List.Basic
import PromptRunner.Cache.FileName

/-!
# When two requests share a name

The digest in a file name is taken of the model, a hyphen and the prompt, and nothing marks where
the model ends. So a digest tells two pairs apart only as far as this one text does, and a pair
whose model runs on into the prompt of another has the same text. The legible pieces are what is
left to keep such pairs apart, and this file says exactly when they fail to.

Say the longer model is the shorter one, a hyphen and a rest. If no slash stands in the rest, the
piece of the longer model is the longer piece. If one does, only what follows the last slash
counts, and that may well look like the shorter model. The longer prompt starts with the same rest
and a hyphen, and the shorter one follows; cut to the same width, both look alike exactly when the
shorter prompt repeats the rest and the hyphen as far as the cut lets one see.
-/

namespace PromptRunner.Cache

open PromptRunner.Text

/-- What is safe of a prompt, before it is cut. -/
def legible (prompt : List Char) : List Char := (prompt.map underscored).filter isSafe

/-- A piece of text over and over, as far as a name shows it. -/
def repeated (piece : List Char) : List Char :=
  ((List.replicate promptWidth piece).flatten).take promptWidth

/-- One pair runs on into the other: its model is the other's up to a hyphen in the other's
prompt, and neither legible piece shows it. -/
def RunsInto (model prompt longer shorter : String) : Prop :=
  ∃ rest : List Char,
    longer.toList = model.toList ++ '-' :: rest ∧ prompt.toList = rest ++ '-' :: shorter.toList ∧
      '/' ∈ rest ∧ modelPiece rest = modelPiece model.toList ∧
        promptPiece shorter.toList = repeated (legible rest ++ ['-'])

/-! ## The name of a model

What stands behind the last slash, by what the model is put together from. -/

theorem modelName_of_notMem {s : List Char} (h : '/' ∉ s) : modelName s = s := by
  rw [modelName, cutAt_of_notMem h]
  rfl

theorem modelName_slash (a b : List Char) : modelName (a ++ '/' :: b) = modelName b := by
  rw [modelName, modelName, cutAt_append, List.getLast?_append_of_ne_nil _ (cutAt_ne_nil '/' b)]

theorem modelName_append {a b : List Char} (h : '/' ∉ b) :
    modelName (a ++ b) = modelName a ++ b := by
  by_cases ha : '/' ∈ a
  · obtain ⟨front, back, hsplit, hback⟩ :
        ∃ front back, a = front ++ '/' :: back ∧ '/' ∉ back := by
      obtain ⟨back, front, hrev, hback⟩ :=
        List.eq_append_cons_of_mem (List.mem_reverse.2 ha)
      refine ⟨front.reverse, back.reverse, ?_, by simpa using hback⟩
      rw [← List.reverse_reverse a, hrev]
      simp
    rw [hsplit, List.append_assoc, List.cons_append, modelName_slash, modelName_slash,
      modelName_of_notMem hback, modelName_of_notMem (by simp [hback, h])]
  · rw [modelName_of_notMem ha, modelName_of_notMem (by simp [ha, h])]

/-! ## The pieces of a name -/

/-- Texts without a separator can be told apart from what follows it. -/
theorem eq_of_append_sep {sep : Char} {a b x y : List Char} (ha : sep ∉ a) (hb : sep ∉ b)
    (h : a ++ sep :: x = b ++ sep :: y) : a = b ∧ x = y := by
  induction a generalizing b with
  | nil =>
    cases b with
    | nil => exact ⟨rfl, by simpa using h⟩
    | cons c b =>
      have hc : sep = c := (List.cons.inj h).1
      exact absurd (hc ▸ List.mem_cons_self) hb
  | cons d a ih =>
    cases b with
    | nil =>
      have hd : d = sep := (List.cons.inj h).1
      exact absurd (hd ▸ List.mem_cons_self) ha
    | cons c b =>
      obtain ⟨rfl, htail⟩ := List.cons.inj h
      obtain ⟨rfl, hxy⟩ := ih (fun m => ha (List.mem_cons_of_mem d m))
        (fun m => hb (List.mem_cons_of_mem d m)) htail
      exact ⟨rfl, hxy⟩

theorem pieces_eq_of_fileName_eq {m p n q : String} (h : fileName m p = fileName n q) :
    promptPiece p.toList = promptPiece q.toList ∧ modelPiece m.toList = modelPiece n.toList := by
  have h := String.ofList_injective h
  simp only [List.append_assoc, List.cons_append] at h
  have hperiod : isSafe '.' = false := by decide
  obtain ⟨hp, h⟩ :=
    eq_of_append_sep (notMem_promptPiece hperiod _) (notMem_promptPiece hperiod _) h
  obtain ⟨hm, -⟩ :=
    eq_of_append_sep (notMem_modelPiece hperiod _) (notMem_modelPiece hperiod _) h
  exact ⟨hp, hm⟩

theorem fileName_eq_of_pieces {m p n q : String}
    (hp : promptPiece p.toList = promptPiece q.toList)
    (hm : modelPiece m.toList = modelPiece n.toList) (hd : digested m p = digested n q) :
    fileName m p = fileName n q := by
  rw [fileName, fileName, hp, hm, digestPiece, digestPiece, hd]

/-- A rest without a slash shows in the piece of the model. -/
theorem slash_mem_of_modelPiece_eq {model rest : List Char}
    (h : modelPiece model = modelPiece (model ++ '-' :: rest)) : '/' ∈ rest := by
  by_contra hrest
  have hname : modelName (model ++ '-' :: rest) = modelName model ++ '-' :: rest :=
    modelName_append (by simp [hrest])
  have hlength := congrArg List.length h
  rw [modelPiece, modelPiece, hname] at hlength
  simp [isSafe] at hlength

/-- Behind a slash in the rest, the model before it no longer shows. -/
theorem modelPiece_append_of_slash {model rest : List Char} (h : '/' ∈ rest) :
    modelPiece (model ++ '-' :: rest) = modelPiece rest := by
  obtain ⟨front, back, rfl⟩ := List.append_of_mem h
  have hassoc : model ++ '-' :: (front ++ '/' :: back) =
      (model ++ '-' :: front) ++ '/' :: back := by simp
  rw [modelPiece, modelPiece, hassoc, modelName_slash, modelName_slash]

/-! ## Prompts that look alike when one is put before the other -/

theorem take_append_take (v q : List Char) (n : Nat) :
    (v ++ q.take n).take n = (v ++ q).take n := by
  rw [List.take_append, List.take_append, List.take_take, Nat.min_eq_left (Nat.sub_le n v.length)]

/-- A text looks like itself behind a piece exactly when it repeats the piece. -/
theorem take_append_eq_iff {v : List Char} (hv : v ≠ []) (q : List Char) (n : Nat) :
    (v ++ q).take n = q.take n ↔ q.take n = ((List.replicate n v).flatten).take n := by
  have hlength : ∀ k, k ≤ ((List.replicate k v).flatten).length := by
    intro k
    have hpos : 0 < v.length := List.length_pos_iff.2 hv
    simpa using Nat.le_mul_of_pos_right k hpos
  constructor
  · intro h
    -- the invariant: any number of pieces put in front leaves the visible part as it is
    have hmany : ∀ k, ((List.replicate k v).flatten ++ q).take n = q.take n := by
      intro k
      induction k with
      | zero => simp
      | succ k ih =>
        rw [List.replicate_succ, List.flatten_cons, List.append_assoc, ← take_append_take, ih,
          take_append_take, h]
    rw [← hmany n, List.take_append_of_le_length (hlength n)]
  · intro h
    have hturn : v ++ (List.replicate n v).flatten = (List.replicate n v).flatten ++ v := by
      rw [← List.flatten_cons, ← List.replicate_succ, List.replicate_succ', List.flatten_append]
      simp
    rw [← take_append_take, h, take_append_take, hturn, List.take_append_of_le_length (hlength n)]

theorem legible_append_hyphen (rest prompt : List Char) :
    legible (rest ++ '-' :: prompt) = (legible rest ++ ['-']) ++ legible prompt := by
  simp [legible, underscored, isSafe]

/-- The two prompts look alike exactly when the shorter repeats what the longer starts with. -/
theorem promptPiece_append_eq_iff (rest prompt : List Char) :
    promptPiece (rest ++ '-' :: prompt) = promptPiece prompt ↔
      promptPiece prompt = repeated (legible rest ++ ['-']) := by
  have hcut : ∀ s, promptPiece s = (legible s).take promptWidth := fun _ => rfl
  rw [hcut, hcut, legible_append_hyphen]
  exact take_append_eq_iff (by simp) (legible prompt) promptWidth

/-! ## Pairs with one digested text -/

theorem RunsInto.same {m p n q : String} (h : RunsInto m p n q) :
    fileName m p = fileName n q ∧ digested m p = digested n q := by
  obtain ⟨rest, hn, hp, hslash, hmodel, hprompt⟩ := h
  have hd : digested m p = digested n q := by simp [digested, hn, hp]
  refine ⟨fileName_eq_of_pieces ?_ ?_ hd, hd⟩
  · rw [hp]
    exact (promptPiece_append_eq_iff rest q.toList).2 hprompt
  · rw [hn, modelPiece_append_of_slash hslash, hmodel]

/-- Where the digested texts are one, the model with less of it runs into the other. -/
theorem runsInto_of_same {m p n q : String} {rest : List Char}
    (hname : fileName m p = fileName n q) (hn : n.toList = m.toList ++ '-' :: rest)
    (hp : p.toList = rest ++ '-' :: q.toList) : RunsInto m p n q := by
  obtain ⟨hprompt, hmodel⟩ := pieces_eq_of_fileName_eq hname
  rw [hn] at hmodel
  rw [hp] at hprompt
  have hslash := slash_mem_of_modelPiece_eq hmodel
  rw [modelPiece_append_of_slash hslash] at hmodel
  exact ⟨rest, hn, hp, hslash, hmodel.symm, (promptPiece_append_eq_iff rest q.toList).1 hprompt⟩

theorem rest_of_digested {a p q rest : List Char} (h : '-' :: p = rest ++ '-' :: q)
    (hne : rest ≠ []) : ∃ w, a ++ rest = a ++ '-' :: w ∧ p = w ++ '-' :: q := by
  obtain ⟨c, w, rfl⟩ := List.exists_cons_of_ne_nil hne
  simp only [List.cons_append, List.cons.injEq] at h
  obtain ⟨rfl, h⟩ := h
  exact ⟨w, rfl, h⟩

/-- Two pairs have one name and one digested text exactly when they are the same pair or one runs
into the other. So requests whose names are equal differ in what is digested, and only a collision
of the digest can have made the names equal, unless one runs into the other. -/
theorem same_name_and_digested_iff (m p n q : String) :
    (fileName m p = fileName n q ∧ digested m p = digested n q) ↔
      (m = n ∧ p = q) ∨ RunsInto m p n q ∨ RunsInto n q m p := by
  constructor
  · rintro ⟨hname, hd⟩
    rcases List.append_eq_append_iff.1 hd with ⟨rest, hn, hp⟩ | ⟨rest, hm, hq⟩
    · rcases eq_or_ne rest [] with rfl | hne
      · refine .inl ⟨String.toList_injective (by simpa using hn.symm), ?_⟩
        exact String.toList_injective (by simpa using hp)
      · obtain ⟨w, hw, hp⟩ := rest_of_digested hp hne
        exact .inr (.inl (runsInto_of_same hname (hn.trans hw) hp))
    · rcases eq_or_ne rest [] with rfl | hne
      · refine .inl ⟨String.toList_injective (by simpa using hm), ?_⟩
        exact String.toList_injective (by simpa using hq.symm)
      · obtain ⟨w, hw, hq⟩ := rest_of_digested hq hne
        exact .inr (.inr (runsInto_of_same hname.symm (hm.trans hw) hq))
  · rintro (⟨rfl, rfl⟩ | h | h)
    · exact ⟨rfl, rfl⟩
    · exact h.same
    · exact ⟨h.same.1.symm, h.same.2.symm⟩

/-- A model `a` and a model `a-x/a`, with prompts that repeat `xa-`: two pairs, one text to digest,
one name. -/
theorem one_name_for_two_pairs :
    ("a", "x/a-xa-xa-xa-xa-xa-xa-xa-xa-xa-xa-") ≠ ("a-x/a", "xa-xa-xa-xa-xa-xa-xa-xa-xa-xa-") ∧
      fileName "a" "x/a-xa-xa-xa-xa-xa-xa-xa-xa-xa-xa-" =
        fileName "a-x/a" "xa-xa-xa-xa-xa-xa-xa-xa-xa-xa-" ∧
      digested "a" "x/a-xa-xa-xa-xa-xa-xa-xa-xa-xa-xa-" =
        digested "a-x/a" "xa-xa-xa-xa-xa-xa-xa-xa-xa-xa-" := by
  have hd : digested "a" "x/a-xa-xa-xa-xa-xa-xa-xa-xa-xa-xa-" =
      digested "a-x/a" "xa-xa-xa-xa-xa-xa-xa-xa-xa-xa-" := by decide +kernel
  refine ⟨by decide +kernel, fileName_eq_of_pieces ?_ ?_ hd, hd⟩
  · decide +kernel
  · decide +kernel

end PromptRunner.Cache
