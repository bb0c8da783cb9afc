import PromptRunner.Json.Fault

/-!
# Strings of a document

A string is read from behind its opening quotation mark. Characters stand for themselves except
the mark, the backslash and the controls below the space, which have to be escaped. An escape by
number names a character below 2 ^ 16 or one half of a pair for a character above; a half without
its partner is refused.

Fields that nobody asked for are skipped by `skipString`, which only checks that the escapes are
escapes: it neither pairs halves nor minds a lone one.

`escaped` is how a string is written: only what has to be escaped is, with the short escape where
there is one. `readString_escaped` says that it reads back whatever follows.
-/

namespace PromptRunner.Json

open PromptRunner.Text

/-- The characters that may stand between the parts of a document. -/
def isSpace (c : Char) : Bool := c = ' ' || c = '\n' || c = '\t' || c = '\r'

def skipSpace (s : List Char) : List Char := s.dropWhile isSpace

@[simp] theorem skipSpace_nil : skipSpace [] = [] := rfl

theorem skipSpace_of_space {c : Char} (h : isSpace c = true) (r : List Char) :
    skipSpace (c :: r) = skipSpace r := by
  simp [skipSpace, h]

theorem skipSpace_of_not_space {c : Char} (h : isSpace c = false) (r : List Char) :
    skipSpace (c :: r) = c :: r := by
  simp [skipSpace, h]

def isControl (c : Char) : Bool := c.toNat < 0x20

def shortEscape? (c : Char) : Option Char :=
  match c with
  | '"' => some '"'
  | '\\' => some '\\'
  | '/' => some '/'
  | 'b' => some '\x08'
  | 'f' => some '\x0c'
  | 'n' => some '\n'
  | 'r' => some '\r'
  | 't' => some '\t'
  | _ => none

def fourDigits? (a b c d : Char) : Option Nat :=
  match hexValue? a, hexValue? b, hexValue? c, hexValue? d with
  | some a, some b, some c, some d => some (((a * 16 + b) * 16 + c) * 16 + d)
  | _, _, _, _ => none

/-- What is wrong where four digits were expected: the text may end within four bytes, or the four
bytes are not all digits. -/
def digitsFault (rest : List Char) : Fault :=
  if byteLength rest < 4 then .here .stringOpen [] else ⟨.badEscape, rest, 4⟩

def isHighHalf (n : Nat) : Bool := 0xD800 ≤ n && n ≤ 0xDBFF

def isLowHalf (n : Nat) : Bool := 0xDC00 ≤ n && n ≤ 0xDFFF

def paired (high low : Nat) : Char :=
  Char.ofNat ((high - 0xD800) * 0x400 + (low - 0xDC00) + 0x10000)

def Reading.prepend (c : Char) : Reading (List Char) → Reading (List Char)
  | .ok (s, rest) => .ok (c :: s, rest)
  | .error e => .error e

/-- A string, from behind its opening mark up to and with the closing one. -/
def readString : List Char → Reading (List Char)
  | [] => .error (.here .stringOpen [])
  | c :: r =>
    if c = '"' then .ok ([], r)
    else if c = '\\' then
      match r with
      | [] => .error (.here .stringOpen [])
      | e :: r1 =>
        if e = 'u' then
          match r1 with
          | a1 :: b1 :: c1 :: d1 :: r2 =>
            match fourDigits? a1 b1 c1 d1 with
            | none => .error (digitsFault r1)
            | some n =>
              if isLowHalf n then .error (.here .loneSurrogate r2)
              else if isHighHalf n then
                match r2 with
                | [] => .error (.here .stringOpen [])
                | s :: r3 =>
                  if s = '\\' then
                    match r3 with
                    | [] => .error (.here .stringOpen [])
                    | u :: r4 =>
                      if u = 'u' then
                        match r4 with
                        | a2 :: b2 :: c2 :: d2 :: r5 =>
                          match fourDigits? a2 b2 c2 d2 with
                          | none => .error (digitsFault r4)
                          | some m =>
                            if isLowHalf m then (readString r5).prepend (paired n m)
                            else .error (.here .loneSurrogate r5)
                        | _ => .error (digitsFault r4)
                      else .error (.next .unfinishedSurrogate r3)
                  else .error (.next .unfinishedSurrogate r2)
              else (readString r2).prepend (Char.ofNat n)
          | _ => .error (digitsFault r1)
        else
          match shortEscape? e with
          | some x => (readString r1).prepend x
          | none => .error (.next .badEscape r)
    else if isControl c then .error (.next .controlInString (c :: r))
    else (readString r).prepend c

/-- The text behind a string that nobody asked for. -/
def skipString : List Char → Except Fault (List Char)
  | [] => .error (.here .stringOpen [])
  | c :: r =>
    if c = '"' then .ok r
    else if c = '\\' then
      match r with
      | [] => .error (.here .stringOpen [])
      | e :: r1 =>
        if e = 'u' then
          match r1 with
          | a1 :: b1 :: c1 :: d1 :: r2 =>
            match fourDigits? a1 b1 c1 d1 with
            | none => .error (digitsFault r1)
            | some _ => skipString r2
          | _ => .error (digitsFault r1)
        else
          match shortEscape? e with
          | some _ => skipString r1
          | none => .error (.next .badEscape r)
    else if isControl c then .error (.here .controlInString (c :: r))
    else skipString r

/-- A text for bytes that are no characters. Where a string is kept it is a fault, as the bytes are;
a string that nobody asked for may hold it. The character in front stands for itself, so that the
half behind it is not taken for the partner of another, and outside of strings it is a fault too. -/
def unkept : List Char := ['\uFFFD', '\\', 'u', 'd', 'c', '0', '0']

def escapedChar (c : Char) : List Char :=
  match c with
  | '"' => ['\\', '"']
  | '\\' => ['\\', '\\']
  | '\x08' => ['\\', 'b']
  | '\x0c' => ['\\', 'f']
  | '\n' => ['\\', 'n']
  | '\r' => ['\\', 'r']
  | '\t' => ['\\', 't']
  | _ =>
    if isControl c then
      ['\\', 'u', '0', '0', hexDigit (c.toNat / 16), hexDigit (c.toNat % 16)]
    else [c]

/-- A string as it is written, without its marks. -/
def escaped (s : List Char) : List Char := s.flatMap escapedChar

theorem readString_quote (r : List Char) : readString ('"' :: r) = .ok ([], r) := by
  rw [readString.eq_def]
  rfl

/-- A character that needs no escape stands for itself. -/
theorem readString_plain {c : Char} (hq : c ≠ '"') (hb : c ≠ '\\') (hc : isControl c = false)
    (r : List Char) : readString (c :: r) = (readString r).prepend c := by
  rw [readString.eq_def]
  simp [hq, hb, hc]

theorem readString_short {e c : Char} (h : shortEscape? e = some c) (r : List Char) :
    readString ('\\' :: e :: r) = (readString r).prepend c := by
  have hu : e ≠ 'u' := by rintro rfl; simp [shortEscape?] at h
  rw [readString.eq_def]
  simp [hu, h]

/-- An escape by number stands for the character of that number, unless it is half of a pair. -/
theorem readString_numbered {a b c d : Char} {n : Nat} (h : fourDigits? a b c d = some n)
    (hl : isLowHalf n = false) (hh : isHighHalf n = false) (r : List Char) :
    readString ('\\' :: 'u' :: a :: b :: c :: d :: r) = (readString r).prepend (Char.ofNat n) := by
  rw [readString.eq_def]
  simp [h, hl, hh]

theorem readString_escapedChar (c : Char) (r : List Char) :
    readString (escapedChar c ++ r) = (readString r).prepend c := by
  unfold escapedChar
  split
  case h_8 hq hb _ _ _ _ _ =>
    split
    case isTrue h =>
      have hlt : c.toNat < 0x20 := by simpa [isControl] using h
      have hd : fourDigits? '0' '0' (hexDigit (c.toNat / 16)) (hexDigit (c.toNat % 16)) =
          some c.toNat := by
        have h0 : hexValue? '0' = some 0 := by decide
        have ha : c.toNat / 16 < 16 := by omega
        have hb : c.toNat % 16 < 16 := by omega
        simp only [fourDigits?, h0, hexValue?_hexDigit ha, hexValue?_hexDigit hb]
        congr 1
        omega
      have hl : isLowHalf c.toNat = false := by
        simp only [isLowHalf, Bool.and_eq_false_iff, decide_eq_false_iff_not]; omega
      have hh : isHighHalf c.toNat = false := by
        simp only [isHighHalf, Bool.and_eq_false_iff, decide_eq_false_iff_not]; omega
      have := readString_numbered hd hl hh r
      rwa [Char.ofNat_toNat] at this
    case isFalse h =>
      exact readString_plain hq hb (by simpa using h) r
  all_goals exact readString_short rfl r

/-- A written string reads back, whatever follows its closing mark. -/
theorem readString_escaped (s r : List Char) :
    readString (escaped s ++ '"' :: r) = .ok (s, r) := by
  induction s with
  | nil => exact readString_quote r
  | cons c s ih =>
    have : escaped (c :: s) ++ '"' :: r = escapedChar c ++ (escaped s ++ '"' :: r) := by
      simp [escaped]
    rw [this, readString_escapedChar, ih]
    rfl

end PromptRunner.Json
