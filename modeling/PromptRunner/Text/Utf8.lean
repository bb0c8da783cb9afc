/-!
# Characters as bytes

Files and answers are bytes and texts are characters. `encode` writes a text as bytes and `decode?`
reads bytes back, refusing any that write no text: stray continuation bytes, forms longer than
needed, halves of surrogate pairs, numbers past the last character. `decodeWith` reads what it can
instead, with a text of the caller for each longest piece that begins some character and cannot go
on; for `decodeLossy` that text is one replacement character.

Both readers rest on one step, `step`, that looks at the bytes left and says which character
stands there or how many bytes are no part of one.
-/

namespace PromptRunner.Text

abbrev Bytes := List UInt8

def encodeChar (c : Char) : Bytes :=
  let n := c.toNat
  let tail (k : Nat) : UInt8 := UInt8.ofNat (0x80 + n / Nat.pow 2 (6 * k) % 0x40)
  if n < 0x80 then [UInt8.ofNat n]
  else if n < 0x800 then [UInt8.ofNat (0xC0 + n / 0x40), tail 0]
  else if n < 0x10000 then [UInt8.ofNat (0xE0 + n / 0x1000), tail 1, tail 0]
  else [UInt8.ofNat (0xF0 + n / 0x40000), tail 2, tail 1, tail 0]

def encode (s : List Char) : Bytes := s.flatMap encodeChar

def bytesOf (s : String) : Bytes := encode s.toList

def byteWidth (c : Char) : Nat :=
  let n := c.toNat
  if n < 0x80 then 1 else if n < 0x800 then 2 else if n < 0x10000 then 3 else 4

theorem length_encodeChar (c : Char) : (encodeChar c).length = byteWidth c := by
  simp only [encodeChar, byteWidth]
  split
  · rfl
  · split
    · rfl
    · split <;> rfl

def byteLength (s : List Char) : Nat := s.foldr (fun c n => byteWidth c + n) 0

theorem length_encode (s : List Char) : (encode s).length = byteLength s := by
  induction s with
  | nil => rfl
  | cons c r ih =>
    have step : encode (c :: r) = encodeChar c ++ encode r := rfl
    rw [step, List.length_append, length_encodeChar, ih]
    rfl

/-- A byte that can only continue a character. -/
def isTail (b : UInt8) : Bool := 0x80 ≤ b && b ≤ 0xBF

/-- The low six bits of a continuation byte. -/
def tailBits (b : UInt8) : Nat := b.toNat % 0x40

/-- What stands at the start of some bytes: a character and its width, or a number of bytes that
belong to none. -/
inductive Step where
  | char (c : Char) (width : Nat)
  | broken (width : Nat)

/-- The least and greatest second byte after a first one: narrower than any continuation byte
where a wider range would allow an overlong form, a surrogate or a number past the last
character. -/
def secondRange (a : UInt8) : UInt8 × UInt8 :=
  if a = 0xE0 then (0xA0, 0xBF)
  else if a = 0xED then (0x80, 0x9F)
  else if a = 0xF0 then (0x90, 0xBF)
  else if a = 0xF4 then (0x80, 0x8F)
  else (0x80, 0xBF)

def fitsSecond (a b : UInt8) : Bool := (secondRange a).1 ≤ b && b ≤ (secondRange a).2

/-- One character, or the longest piece that only begins one. -/
def step (a : UInt8) (rest : Bytes) : Step :=
  if a < 0x80 then .char (Char.ofNat a.toNat) 1
  else if a < 0xC2 || 0xF4 < a then .broken 1
  else
    match rest with
    | [] => .broken 1
    | b :: rest =>
      if !fitsSecond a b then .broken 1
      else if a < 0xE0 then .char (Char.ofNat (a.toNat % 0x20 * 0x40 + tailBits b)) 2
      else
        match rest with
        | [] => .broken 2
        | c :: rest =>
          if !isTail c then .broken 2
          else if a < 0xF0 then
            .char (Char.ofNat (a.toNat % 0x10 * 0x1000 + tailBits b * 0x40 + tailBits c)) 3
          else
            match rest with
            | [] => .broken 3
            | d :: _ =>
              if !isTail d then .broken 3
              else
                .char (Char.ofNat (a.toNat % 0x08 * 0x40000 + tailBits b * 0x1000 +
                  tailBits c * 0x40 + tailBits d)) 4

def decodeSteps (replacement : Option (List Char)) : Nat → Bytes → Option (List Char)
  | _, [] => some []
  | 0, _ :: _ => none
  | fuel + 1, a :: rest =>
    match step a rest with
    | .char c width => (decodeSteps replacement fuel (rest.drop (width - 1))).map (c :: ·)
    | .broken width =>
      match replacement with
      | none => none
      | some text => (decodeSteps replacement fuel (rest.drop (width - 1))).map (text ++ ·)

/-- The text that some bytes write, if they write one. -/
def decode? (bytes : Bytes) : Option (List Char) := decodeSteps none bytes.length bytes

/-- The text that some bytes write, with another text for each piece that is no character. -/
def decodeWith (replacement : List Char) (bytes : Bytes) : List Char :=
  (decodeSteps (some replacement) bytes.length bytes).getD []

/-- The text that some bytes write, with U+FFFD for each piece that is no character. -/
def decodeLossy : Bytes → List Char := decodeWith ['\uFFFD']

/-- `decode?` into a string. -/
def stringOf? (bytes : Bytes) : Option String := (decode? bytes).map String.ofList

end PromptRunner.Text
