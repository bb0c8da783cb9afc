import PromptRunner.Proofs.Text.Blank
import PromptRunner.Proofs.Web.Percent

/-!
# What becomes of the segments of a path

A path is read segment by segment onto a stack of those before. A segment is entered as it is
written, unless it is made of dots: then it is left out, and may take one off the stack with it. So
a path is what its front leaves on the stack, continued by its back (`resolveDots_append`), and one
without dots is only written (`resolveDots_of_plain`).

What is lost can be measured. The bytes that a path stands for are never more than those it was
given as; and they are as many only if no segment was made of dots (`resolveDots_within`). A segment
is not empty if it is made of dots, which pays for the empty one that it may leave at the end.
-/

namespace PromptRunner.Web

open PromptRunner.Text

variable {done segments rest : List (List Char)} {segment s : List Char}

/-! ## Segments behind slashes -/

/-- Segments as a path has them. -/
def slashed (segments : List (List Char)) : List Char := segments.flatMap ('/' :: ·)

theorem slashed_cons (segment : List Char) (segments : List (List Char)) :
    slashed (segment :: segments) = '/' :: (segment ++ slashed segments) := by
  rw [slashed, List.flatMap_cons, List.cons_append]
  rfl

theorem slashed_append (a b : List (List Char)) : slashed (a ++ b) = slashed a ++ slashed b :=
  List.flatMap_append

theorem slashed_cutAt (s : List Char) : slashed (cutAt '/' s) = '/' :: s := by
  induction s with
  | nil => rfl
  | cons c s ih =>
    unfold cutAt
    split
    · next hc => rw [slashed_cons, ih, hc, List.nil_append]
    · cases hcut : cutAt '/' s with
      | nil => exact absurd hcut (cutAt_ne_nil '/' s)
      | cons piece pieces =>
        rw [hcut, slashed_cons, List.cons.injEq] at ih
        rw [slashed_cons, List.cons_append, ih.2]

/-- A path is written segment by segment. -/
theorem slashed_percentEncode (segments : List (List Char)) :
    slashed (segments.map (percentEncode pathSet)) = percentEncode pathSet (slashed segments) := by
  induction segments with
  | nil => rfl
  | cons segment segments ih =>
    have hslash : ∀ s, percentEncode pathSet ('/' :: s) = '/' :: percentEncode pathSet s :=
      fun _ => rfl
    rw [List.map_cons, slashed_cons, slashed_cons, ih, hslash]
    simp only [percentEncode, List.flatMap_append]

/-- What is put behind a text without a slash goes into its last piece. -/
theorem exists_last_piece (s back : List Char) (hback : '/' ∉ back) :
    ∃ front last, cutAt '/' s = front ++ [last] ∧
      cutAt '/' (s ++ back) = front ++ [last ++ back] := by
  induction s with
  | nil => exact ⟨[], [], rfl, cutAt_of_notMem hback⟩
  | cons c s ih =>
    obtain ⟨front, last, hs, happend⟩ := ih
    rw [List.cons_append, cutAt, cutAt, happend, hs]
    split
    · exact ⟨[] :: front, last, rfl, rfl⟩
    · cases front with
      | nil => exact ⟨[], c :: last, rfl, rfl⟩
      | cons piece front => exact ⟨(c :: piece) :: front, last, rfl, rfl⟩

/-! ## Segments of dots -/

/-- A segment that is made of one dot or of two. -/
def isDotted (segment : List Char) : Bool := isDoubleDot segment || isDot segment

/-- The stack behind a segment that is not the last. -/
def entered (done : List (List Char)) (segment : List Char) : List (List Char) :=
  if isDoubleDot segment then above done
  else if isDot segment then done
  else percentEncode pathSet segment :: done

theorem resolveDots_entered (hrest : rest ≠ []) :
    resolveDots done (segment :: rest) = resolveDots (entered done segment) rest := by
  have hmore : rest.isEmpty = false := by
    cases rest with
    | nil => exact absurd rfl hrest
    | cons => rfl
  simp only [resolveDots, entered, hmore, Bool.false_eq_true, if_false]

/-- The front of a path leaves a stack, and the back goes on from there. -/
theorem resolveDots_append (hrest : rest ≠ []) (segments : List (List Char)) :
    resolveDots done (segments ++ rest) = resolveDots (segments.foldl entered done) rest := by
  induction segments generalizing done with
  | nil => rfl
  | cons segment segments ih =>
    have hmore : segments ++ rest ≠ [] := List.append_ne_nil_of_right_ne_nil segments hrest
    rw [List.cons_append, resolveDots_entered hmore, ih, List.foldl_cons]

theorem resolveDots_plain (h : isDotted segment = false) :
    resolveDots done (segment :: rest) =
      resolveDots (percentEncode pathSet segment :: done) rest := by
  obtain ⟨hdouble, hsingle⟩ := Bool.or_eq_false_iff.1 h
  simp only [resolveDots, hdouble, hsingle, Bool.false_eq_true, if_false]

/-- Segments without dots are written as they come. -/
theorem resolveDots_of_plain (h : ∀ segment ∈ segments, isDotted segment = false) :
    resolveDots done segments = done.reverse ++ segments.map (percentEncode pathSet) := by
  induction segments generalizing done with
  | nil => exact (List.append_nil _).symm
  | cons segment segments ih =>
    obtain ⟨hsegment, hsegments⟩ := List.forall_mem_cons.1 h
    rw [resolveDots_plain hsegment, ih hsegments, List.reverse_cons, List.append_assoc]
    rfl

/-- A path whose segments have no dots is written behind the stack. -/
theorem slashed_of_plain (h : ∀ segment ∈ cutAt '/' s, isDotted segment = false) :
    slashed (resolveDots done (cutAt '/' s)) =
      slashed done.reverse ++ '/' :: percentEncode pathSet s := by
  rw [resolveDots_of_plain h, slashed_append, slashed_percentEncode, slashed_cutAt]
  rfl

/-- A path in two parts is what its first part leaves, continued by the second. -/
theorem exists_done (front : List Char) :
    ∃ done, ∀ back, normalPath (front ++ '/' :: back) =
      slashed (resolveDots done (cutAt '/' back)) := by
  cases front with
  | nil => exact ⟨[], fun _ => rfl⟩
  | cons c front =>
    refine ⟨(cutAt '/' front).foldl entered [], fun back => ?_⟩
    rw [← resolveDots_append (cutAt_ne_nil '/' back), ← cutAt_append]
    rfl

/-! ## How much is left -/

theorem harmless_pathSet : Harmless pathSet := by
  rintro c (rfl | hc)
  · rfl
  · have hsmall : c.toNat < 103 := by
      unfold hexValue? at hc
      by_contra hlarge
      rw [if_neg (by simp; omega), if_neg (by simp; omega), if_neg (by simp; omega)] at hc
      cases hc
    have hall : ∀ n < 103, (hexValue? (Char.ofNat n)).isSome → pathSet (Char.ofNat n) = false := by
      decide
    have hself : Char.ofNat c.toNat = c := Char.ofNat_toNat c
    have h := hall c.toNat hsmall
    rw [hself] at h
    exact h hc

theorem isBarrier_slash : IsBarrier '/' := ⟨by decide, rfl⟩

/-- What a path stands for is what its segments stand for. -/
theorem percentDecode_slashed (front : List Char) (segments : List (List Char)) :
    percentDecode (front ++ slashed segments) =
      percentDecode front ++ segments.flatMap fun s => encodeChar '/' ++ percentDecode s := by
  induction segments generalizing front with
  | nil => rw [slashed, List.flatMap_nil, List.flatMap_nil, List.append_nil, List.append_nil]
  | cons segment segments ih =>
    rw [slashed_cons, ← List.cons_append, ← List.append_assoc, ih, List.flatMap_cons,
      percentDecode_append isBarrier_slash]
    simp only [List.append_assoc]

/-- How many bytes a path stands for. -/
def span (segments : List (List Char)) : Nat := (percentDecode (slashed segments)).length

theorem span_append (a b : List (List Char)) : span (a ++ b) = span a + span b := by
  have h := percentDecode_slashed []
  simp only [List.nil_append, percentDecode_nil] at h
  simp only [span, h, List.flatMap_append, List.length_append]

theorem span_singleton (s : List Char) : span [s] = 1 + (percentDecode s).length := by
  have h := percentDecode_slashed [] [s]
  rw [List.nil_append, percentDecode_nil, List.nil_append, List.flatMap_singleton] at h
  rw [span, h, List.length_append]
  rfl

theorem span_reverse_cons (s : List Char) (done : List (List Char)) :
    span (s :: done).reverse = span done.reverse + 1 + (percentDecode s).length := by
  rw [List.reverse_cons, span_append, span_singleton, Nat.add_assoc]

theorem span_above_le (done : List (List Char)) :
    span (above done).reverse ≤ span done.reverse := by
  cases done with
  | nil => exact Nat.le_refl _
  | cons s done =>
    rw [above]
    split
    · exact Nat.le_refl _
    · rw [span_reverse_cons]
      omega

/-- A segment of dots leaves no more than an empty segment behind. -/
theorem exists_resolveDots_dotted (h : isDotted segment = true) (done rest : List (List Char)) :
    ∃ done', resolveDots done (segment :: rest) = resolveDots done' rest ∧
      span done'.reverse ≤ span done.reverse + 1 := by
  have habove := span_above_le done
  have hempty : ∀ done, span ([] :: done).reverse = span done.reverse + 1 :=
    fun done => span_reverse_cons [] done
  refine ⟨_, rfl, ?_⟩
  unfold isDotted at h
  by_cases hdouble : isDoubleDot segment = true
  · rw [if_pos hdouble]
    split
    · rw [hempty]
      omega
    · omega
  · rw [if_neg hdouble, if_pos (by simpa [hdouble] using h)]
    split
    · rw [hempty]
    · omega

/-- A path stands for no more bytes than it was given as, and for as many only if no segment was
made of dots. -/
theorem resolveDots_within (done segments : List (List Char)) :
    span (resolveDots done segments) ≤ span done.reverse + (encode (slashed segments)).length ∧
      (span (resolveDots done segments) = span done.reverse + (encode (slashed segments)).length →
        ∀ segment ∈ segments, isDotted segment = false) := by
  have hone : (encodeChar '/').length = 1 := rfl
  induction segments generalizing done with
  | nil => exact ⟨Nat.le_refl _, fun _ => nofun⟩
  | cons segment rest ih =>
    have hlength : (encode (slashed (segment :: rest))).length =
        1 + (encode segment).length + (encode (slashed rest)).length := by
      rw [slashed_cons, encode_cons, List.length_append, hone, encode, List.flatMap_append,
        List.length_append, Nat.add_assoc]
      rfl
    rw [hlength]
    cases hdots : isDotted segment with
    | true =>
      obtain ⟨done', heq, hle⟩ := exists_resolveDots_dotted hdots done rest
      have hpos : 0 < (encode segment).length := by
        cases segment with
        | nil => cases hdots
        | cons c segment =>
          have hc := length_encodeChar_pos c
          rw [encode_cons, List.length_append]
          omega
      have hrest := (ih done').1
      rw [heq]
      exact ⟨by omega, fun h => absurd h (by omega)⟩
    | false =>
      obtain ⟨hle, hplain⟩ := ih (percentEncode pathSet segment :: done)
      have hsegment := (percentDecode_within segment).1
      rw [span_reverse_cons, percentDecode_percentEncode harmless_pathSet] at hle hplain
      rw [resolveDots_plain hdots]
      refine ⟨by omega, fun h => List.forall_mem_cons.2 ⟨hdots, hplain (by omega)⟩⟩

end PromptRunner.Web
