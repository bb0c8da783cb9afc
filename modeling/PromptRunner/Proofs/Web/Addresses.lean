import PromptRunner.Proofs.Web.Paths

/-!
# What is put behind an address comes into its path

An address is often made of a base and a path, by putting one text behind the other. It is read
as a whole, though, and what the path was meant to be is only then found out. Here the reading is
followed over the slash between them. If the base alone is a web address without a query or a
fragment, then whatever is put behind its slash is read as an address of the same host, and none of
the stages in between sees the two parts together: blanks are dropped from each, the scheme and the
host end in the first, and the first hash sign or question mark is in the second.

What is left of the second part is `seen`, and its segments are entered behind those of the base
(`parse?_behind`). So the path of the base is a beginning of the whole path only as far as the dots
let it be.
-/

namespace PromptRunner.Web

open PromptRunner.Text

variable {front back : List Char} {scheme : List Char} {sep : Char} {u : Url}

/-! ## A slash in between -/

theorem takeWhile_stop {p : Char → Bool} {c : Char} (hc : p c = false) (front back : List Char) :
    (front ++ c :: back).takeWhile p = front.takeWhile p := by
  rw [List.takeWhile_append, List.takeWhile_cons_of_neg (by simp [hc]), List.append_nil]
  split
  · next h => exact ((List.takeWhile_prefix p).eq_of_length h).symm
  · rfl

theorem dropWhile_stop {p : Char → Bool} {c : Char} (hc : p c = false) (front back : List Char) :
    (front ++ c :: back).dropWhile p = front.dropWhile p ++ c :: back := by
  rw [List.dropWhile_append, List.dropWhile_cons_of_neg (by simp [hc])]
  split
  · next h => rw [List.isEmpty_iff.1 h, List.nil_append]
  · rfl

theorem drop_takeWhile (p : Char → Bool) (front back : List Char) :
    (front ++ back).drop (front.takeWhile p).length =
      front.drop (front.takeWhile p).length ++ back :=
  List.drop_append_of_le_length (List.takeWhile_prefix p).length_le

/-- The controls and spaces that are dropped around an address. -/
def isEdge (c : Char) : Bool := c.toNat ≤ 0x20

/-- Tabs and line breaks, which are dropped anywhere in it. -/
def isBreak (c : Char) : Bool := c = '\t' || c = '\n' || c = '\r'

theorem cleaned_eq (s : List Char) :
    cleaned s = ((s.dropWhile isEdge).reverse.dropWhile isEdge).reverse.filter (!isBreak ·) := rfl

/-- A text that does not end in a control or a space. -/
def IsEnded (s : List Char) : Prop := ∀ c ∈ s.getLast?, isEdge c = false

theorem IsEnded.dropWhile_reverse {s : List Char} (h : IsEnded s) :
    s.reverse.dropWhile isEdge = s.reverse := by
  unfold IsEnded at h
  rw [← List.head?_reverse] at h
  cases hs : s.reverse with
  | nil => rfl
  | cons c rest =>
    rw [hs] at h
    exact List.dropWhile_cons_of_neg (by simp [h c rfl])

theorem cleaned_behind (front : List Char) :
    ∃ kept, ∀ back, IsEnded back →
      cleaned (front ++ '/' :: back) = kept ++ '/' :: back.filter (!isBreak ·) := by
  refine ⟨(front.dropWhile isEdge).filter (!isBreak ·), fun back hback => ?_⟩
  have hended : IsEnded (front.dropWhile isEdge ++ '/' :: back) := by
    rw [IsEnded, List.getLast?_append_cons]
    cases back with
    | nil =>
      rintro c ⟨⟩
      rfl
    | cons c back => exact hback
  rw [cleaned_eq, dropWhile_stop (p := isEdge) rfl, hended.dropWhile_reverse, List.reverse_reverse,
    List.filter_append]
  rfl

def isSchemeChar (c : Char) : Bool := c.isAlphanum || c = '+' || c = '-' || c = '.'

theorem cutScheme?_eq (s : List Char) :
    cutScheme? s = match s.takeWhile isSchemeChar, s.drop (s.takeWhile isSchemeChar).length with
      | c :: tail, ':' :: rest =>
        if c.isAlpha then some ((c :: tail).map Char.toLower, rest) else none
      | _, _ => none := by
  unfold cutScheme?
  show (match s.takeWhile isSchemeChar, s.drop (s.takeWhile isSchemeChar).length with
    | c :: _, ':' :: rest => if c.isAlpha then
        some ((s.takeWhile isSchemeChar).map Char.toLower, rest) else none
    | _, _ => none) = _
  split
  · next h _ => rw [h]
  · rfl

theorem cutScheme?_behind {rest : List Char}
    (h : cutScheme? (front ++ ['/']) = some (scheme, rest)) :
    ∃ kept, ∀ back, cutScheme? (front ++ '/' :: back) = some (scheme, kept ++ '/' :: back) := by
  have htake : ∀ back, (front ++ '/' :: back).takeWhile isSchemeChar =
      front.takeWhile isSchemeChar := takeWhile_stop rfl front
  rw [cutScheme?_eq, htake, drop_takeWhile] at h
  cases hscheme : front.takeWhile isSchemeChar with
  | nil =>
    rw [hscheme] at h
    cases h
  | cons c tail =>
    rw [hscheme] at h
    cases hfront : front.drop (c :: tail).length with
    | nil =>
      rw [hfront] at h
      cases h
    | cons d kept =>
      rw [hfront, List.cons_append] at h
      split at h
      · next hparts hd =>
        obtain ⟨rfl, rfl⟩ := List.cons.inj hparts
        obtain ⟨rfl, -⟩ := List.cons.inj hd
        split at h
        · next hletter =>
          cases h
          refine ⟨kept, fun back => ?_⟩
          rw [cutScheme?_eq, htake, drop_takeWhile, hscheme, hfront]
          exact if_pos hletter
        · cases h
      · cases h

/-! ## The host, and what follows it -/

theorem cutOnce_fst (sep : Char) (s : List Char) : (cutOnce sep s).1 = s.takeWhile (· ≠ sep) := by
  unfold cutOnce
  split
  · next h =>
    have hwhole := List.takeWhile_append_dropWhile (p := fun c => decide (c ≠ sep)) (l := s)
    rw [h, List.append_nil] at hwhole
    exact hwhole.symm
  · rfl

theorem cutOnce_behind (hsep : sep ≠ '/') (hfront : sep ∉ front) (back : List Char) :
    cutOnce sep (front ++ '/' :: back) =
      (front ++ '/' :: (cutOnce sep back).1, (cutOnce sep back).2) := by
  have hall : ∀ c ∈ front, decide (c ≠ sep) = true :=
    fun c hc => decide_eq_true fun heq => hfront (heq ▸ hc)
  unfold cutOnce
  rw [List.dropWhile_append_of_pos hall, List.takeWhile_append_of_pos hall, List.dropWhile_cons,
    List.takeWhile_cons, if_pos (decide_eq_true hsep.symm), if_pos (decide_eq_true hsep.symm)]
  split <;> rfl

theorem notMem_of_cutOnce {s : List Char} (h : (cutOnce sep s).2 = none) : sep ∉ s := by
  unfold cutOnce at h
  split at h
  · next hnil =>
    intro hmem
    have hnot := List.dropWhile_eq_nil_iff.1 hnil sep hmem
    simp at hnot
  · cases h

/-- What a path is made of, out of a text behind the host of a web address. -/
def seen (s : List Char) : List Char :=
  (cutOnce '?' (cutOnce '#' (s.filter (!isBreak ·))).1).1.map forward

/-- An address of a host, with whatever is put behind a slash of it. -/
theorem ofAuthority_behind (scheme : List Char) (port : Nat) (hhash : '#' ∉ front)
    (hmark : '?' ∉ front) :
    ∃ (made : Option (List Char × Option Nat)) (done : List (List Char)), ∀ back,
      ofAuthority scheme (some port) (front ++ '/' :: back) = made.map fun (host, port) =>
        { scheme
          host := some host
          port
          path := slashed (resolveDots done
            (cutAt '/' ((cutOnce '?' (cutOnce '#' back).1).1.map forward)))
          query := (cutOnce '?' (cutOnce '#' back).1).2.map (percentEncode webQuerySet)
          fragment := (cutOnce '#' back).2.map (percentEncode fragmentSet) } := by
  let authority := (front.map forward).takeWhile (· ≠ '/')
  obtain ⟨done, hdone⟩ := exists_done ((front.map forward).drop authority.length)
  refine ⟨(webHost? (cutPort (withoutUser authority)).1).bind fun host =>
    (port? (some port) (cutPort (withoutUser authority)).2).map fun port => (host, port),
    done, fun back => ?_⟩
  have hmap : ∀ back, (front ++ '/' :: back).map forward =
      front.map forward ++ '/' :: back.map forward :=
    fun _ => List.map_append
  have htake : ∀ back, ((front.map forward ++ '/' :: back).takeWhile fun c => decide (c ≠ '/')) =
      authority :=
    takeWhile_stop rfl _
  have hdrop : ∀ back, (front.map forward ++ '/' :: back).drop authority.length =
      (front.map forward).drop authority.length ++ '/' :: back :=
    fun back => drop_takeWhile _ _ _
  unfold ofAuthority
  simp only [cutOnce_behind (show '#' ≠ '/' by decide) hhash,
    cutOnce_behind (show '?' ≠ '/' by decide) hmark, Option.isSome_some, if_true, hmap, htake,
    hdrop, hdone]
  cases webHost? (cutPort (withoutUser authority)).1 with
  | none => rfl
  | some host =>
    cases port? (some port) (cutPort (withoutUser authority)).2 with
    | none => rfl
    | some port => simp

theorem ofAuthority_parts {web : Option Nat} {s : List Char}
    (h : ofAuthority scheme web s = some u) :
    u.scheme = scheme ∧ (u.fragment = none → (cutOnce '#' s).2 = none) ∧
      (u.query = none → (cutOnce '?' (cutOnce '#' s).1).2 = none) := by
  unfold ofAuthority at h
  simp only at h
  split at h
  · cases h
    exact ⟨rfl, Option.map_eq_none_iff.1, Option.map_eq_none_iff.1⟩
  · cases h

theorem scheme_of_ofFile {s : List Char} (h : ofFile s = some u) : u.scheme = fileScheme := by
  unfold ofFile at h
  simp only at h
  split at h <;> cases h
  rfl

/-! ## The whole address -/

theorem webPort?_of_isWeb (h : u.isWeb = true) : ∃ port, webPort? u.scheme = some port := by
  unfold Url.isWeb at h
  rcases Bool.or_eq_true_iff.1 h with h | h
  · rw [of_decide_eq_true h]
    exact ⟨80, rfl⟩
  · rw [of_decide_eq_true h]
    exact ⟨443, rfl⟩

/-- An address that things can be put behind: with a slash at its end it is an address of the web,
without a query and without a fragment. -/
structure IsBase (base : String) (u : Url) : Prop where
  parsed : Url.parse? (base ++ "/") = some u
  web : u.isWeb = true
  query : u.query = none
  fragment : u.fragment = none

/-- A slash, either way. -/
def isSlash (c : Char) : Bool := c = '/' || c = '\\'

theorem parse?_web {text : String} {rest : List Char} {port : Nat}
    (hscheme : cutScheme? (cleaned text.toList) = some (scheme, rest))
    (hport : webPort? scheme = some port) :
    Url.parse? text = ofAuthority scheme (some port) (rest.dropWhile isSlash) := by
  simp only [Url.parse?, hscheme, hport]
  rfl

theorem scheme_of_parse? {text : String} (h : Url.parse? text = some u) :
    ∃ rest, cutScheme? (cleaned text.toList) = some (u.scheme, rest) := by
  unfold Url.parse? at h
  split at h
  · cases h
  · next scheme rest hscheme =>
    refine ⟨rest, ?_⟩
    split at h
    · rw [(ofAuthority_parts h).1, hscheme]
    · split at h
      · next hfile => rw [scheme_of_ofFile h, ← hfile, hscheme]
      · split at h
        · rw [(ofAuthority_parts h).1, hscheme]
        · cases h
          exact hscheme

/-- What is put behind an address is an address, and its segments are entered behind those that are
there. -/
theorem IsBase.parse?_behind {base : String} (h : IsBase base u) :
    ∃ done, ∀ back : String, IsEnded back.toList →
      ∃ v, Url.parse? (base ++ "/" ++ back) = some v ∧
        v.path = slashed (resolveDots done (cutAt '/' (seen back.toList))) := by
  have hparsed := h.parsed
  obtain ⟨front, hcleaned⟩ := cleaned_behind base.toList
  have htext : ∀ back : String,
      (base ++ "/" ++ back).toList = base.toList ++ '/' :: back.toList := by
    intro back
    simp
  have hnil : cleaned (base ++ "/").toList = front ++ ['/'] := by
    rw [String.toList_append]
    exact hcleaned [] nofun
  -- the scheme ends in the base
  obtain ⟨rest, hscheme⟩ := scheme_of_parse? hparsed
  rw [hnil] at hscheme
  obtain ⟨kept, hkept⟩ := cutScheme?_behind hscheme
  obtain ⟨port, hport⟩ := webPort?_of_isWeb h.web
  rw [parse?_web (by rw [hnil, hkept]) hport] at hparsed
  -- so does the row of slashes behind it, since nothing can be behind it otherwise
  let authority := kept.dropWhile isSlash
  have hne : authority.isEmpty ≠ true := by
    intro hempty
    rw [List.dropWhile_append, if_pos hempty] at hparsed
    cases hparsed
  have hslashes : ∀ back, (kept ++ '/' :: back).dropWhile isSlash = authority ++ '/' :: back := by
    intro back
    rw [List.dropWhile_append, if_neg hne]
  rw [hslashes] at hparsed
  -- and there is no hash sign or question mark in it
  obtain ⟨-, hfragment, hquery⟩ := ofAuthority_parts hparsed
  have hhash : '#' ∉ authority := fun hmem =>
    notMem_of_cutOnce (hfragment h.fragment) (List.mem_append_left _ hmem)
  have hmark : '?' ∉ authority := fun hmem => by
    refine notMem_of_cutOnce (hquery h.query) ?_
    rw [cutOnce_behind (by decide) hhash]
    exact List.mem_append_left _ hmem
  obtain ⟨made, done, hmade⟩ := ofAuthority_behind u.scheme port hhash hmark
  rw [hmade] at hparsed
  obtain ⟨parts, rfl, -⟩ := Option.map_eq_some_iff.1 hparsed
  refine ⟨done, fun back hback => ?_⟩
  have hcut := hkept (back.toList.filter (!isBreak ·))
  rw [← hcleaned back.toList hback, ← htext] at hcut
  rw [parse?_web hcut hport, hslashes, hmade]
  exact ⟨_, rfl, rfl⟩

/-! ## How much is seen -/

theorem seen_eq (s : List Char) :
    seen s = (((s.filter (!isBreak ·)).takeWhile (· ≠ '#')).takeWhile (· ≠ '?')).map forward := by
  rw [seen, cutOnce_fst, cutOnce_fst]

theorem length_encode_forward (s : List Char) :
    (encode (s.map forward)).length = (encode s).length := by
  induction s with
  | nil => rfl
  | cons c s ih =>
    have hc : (encodeChar (forward c)).length = (encodeChar c).length := by
      unfold forward
      split
      · next h => rw [h]; rfl
      · rfl
    rw [List.map_cons, encode_cons, encode_cons, List.length_append, List.length_append, ih, hc]

theorem map_forward_eq_self_iff {s : List Char} : s.map forward = s ↔ '\\' ∉ s := by
  induction s with
  | nil => simp
  | cons c s ih =>
    rw [List.map_cons, List.cons.injEq, ih, List.mem_cons, not_or, forward]
    refine and_congr_left fun _ => ?_
    split
    · next h => simp [h]
    · next h => simpa using fun heq => h heq.symm

/-- A part of a text has fewer bytes, unless it is all of it. -/
theorem length_encode_of_sublist {s t : List Char} (h : s.Sublist t) :
    (encode s).length ≤ (encode t).length ∧ ((encode s).length = (encode t).length → s = t) := by
  induction h with
  | slnil => exact ⟨Nat.le_refl _, fun _ => rfl⟩
  | cons c _ ih =>
    have hc := length_encodeChar_pos c
    rw [encode_cons, List.length_append]
    exact ⟨by omega, fun heq => absurd heq (by omega)⟩
  | cons_cons c _ ih =>
    rw [encode_cons, encode_cons, List.length_append, List.length_append]
    refine ⟨by omega, fun heq => ?_⟩
    rw [ih.2 (by omega)]

/-- Whether a character is seen as it is given, or as a slash. -/
def isSeen (c : Char) : Bool := !isBreak c && c ≠ '#' && c ≠ '?'

theorem isSeen_iff {c : Char} : isSeen c = true ↔ isBreak c = false ∧ c ≠ '#' ∧ c ≠ '?' := by
  simp [isSeen, and_assoc]

theorem seen_of_isSeen {s : List Char} (h : ∀ c ∈ s, isSeen c = true) :
    seen s = s.map forward := by
  have hfilter : s.filter (!isBreak ·) = s :=
    List.filter_eq_self.2 fun c hc => by simp [(isSeen_iff.1 (h c hc)).1]
  have hhash : s.takeWhile (· ≠ '#') = s :=
    List.takeWhile_eq_self_iff.2 fun c hc => decide_eq_true (isSeen_iff.1 (h c hc)).2.1
  have hmark : s.takeWhile (· ≠ '?') = s :=
    List.takeWhile_eq_self_iff.2 fun c hc => decide_eq_true (isSeen_iff.1 (h c hc)).2.2
  rw [seen_eq, hfilter, hhash, hmark]

/-- What is seen of a text has no more bytes than it, and as many only if every character is
seen. -/
theorem seen_within (s : List Char) :
    (encode (seen s)).length ≤ (encode s).length ∧
      ((encode (seen s)).length = (encode s).length → ∀ c ∈ s, isSeen c = true) := by
  have hmark : (((s.filter (!isBreak ·)).takeWhile (· ≠ '#')).takeWhile (· ≠ '?')).Sublist
      ((s.filter (!isBreak ·)).takeWhile (· ≠ '#')) := List.takeWhile_sublist _
  have hhash : ((s.filter (!isBreak ·)).takeWhile (· ≠ '#')).Sublist (s.filter (!isBreak ·)) :=
    List.takeWhile_sublist _
  have hfilter : (s.filter (!isBreak ·)).Sublist s := List.filter_sublist
  obtain ⟨hle, heq⟩ := length_encode_of_sublist (hmark.trans (hhash.trans hfilter))
  rw [seen_eq, length_encode_forward]
  refine ⟨hle, fun h c hc => ?_⟩
  -- all of it is left behind every stage
  have hall := heq h
  rw [← hall] at hc
  have hbefore := hmark.subset hc
  have hbreak := List.of_mem_filter (hhash.subset hbefore)
  have hnoHash := List.mem_takeWhile_imp hbefore
  have hnoMark := List.mem_takeWhile_imp hc
  exact isSeen_iff.2
    ⟨by simpa using hbreak, of_decide_eq_true hnoHash, of_decide_eq_true hnoMark⟩

end PromptRunner.Web
