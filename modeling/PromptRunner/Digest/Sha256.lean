import PromptRunner.Text.Hex

/-!
# The SHA-256 digest

The message is padded to whole blocks of sixty-four bytes, each block is spread over a schedule of
sixty-four words, and every block mixes its schedule into a state of eight words. The digest is
the state after the last block. Words are thirty-two bits wide and wrap.
-/

namespace PromptRunner.Digest

/-- The eight words that every message starts from. -/
def initialState : List UInt32 :=
  [0x6a09e667, 0xbb67ae85, 0x3c6ef372, 0xa54ff53a, 0x510e527f, 0x9b05688c, 0x1f83d9ab, 0x5be0cd19]

/-- The constant of each of the sixty-four rounds. -/
def roundConstants : List UInt32 :=
  [0x428a2f98, 0x71374491, 0xb5c0fbcf, 0xe9b5dba5, 0x3956c25b, 0x59f111f1, 0x923f82a4, 0xab1c5ed5,
   0xd807aa98, 0x12835b01, 0x243185be, 0x550c7dc3, 0x72be5d74, 0x80deb1fe, 0x9bdc06a7, 0xc19bf174,
   0xe49b69c1, 0xefbe4786, 0x0fc19dc6, 0x240ca1cc, 0x2de92c6f, 0x4a7484aa, 0x5cb0a9dc, 0x76f988da,
   0x983e5152, 0xa831c66d, 0xb00327c8, 0xbf597fc7, 0xc6e00bf3, 0xd5a79147, 0x06ca6351, 0x14292967,
   0x27b70a85, 0x2e1b2138, 0x4d2c6dfc, 0x53380d13, 0x650a7354, 0x766a0abb, 0x81c2c92e, 0x92722c85,
   0xa2bfe8a1, 0xa81a664b, 0xc24b8b70, 0xc76c51a3, 0xd192e819, 0xd6990624, 0xf40e3585, 0x106aa070,
   0x19a4c116, 0x1e376c08, 0x2748774c, 0x34b0bcb5, 0x391c0cb3, 0x4ed8aa4a, 0x5b9cca4f, 0x682e6ff3,
   0x748f82ee, 0x78a5636f, 0x84c87814, 0x8cc70208, 0x90befffa, 0xa4506ceb, 0xbef9a3f7, 0xc67178f2]

def rotate (x : UInt32) (n : UInt32) : UInt32 := (x >>> n) ||| (x <<< (32 - n))

/-- Four bytes as a word, the first the highest. -/
def word (a b c d : UInt8) : UInt32 :=
  (a.toUInt32 <<< 24) ||| (b.toUInt32 <<< 16) ||| (c.toUInt32 <<< 8) ||| d.toUInt32

/-- The words of some bytes, four at a time. -/
def words : List UInt8 → List UInt32
  | a :: b :: c :: d :: rest => word a b c d :: words rest
  | _ => []

/-- The four bytes of a word, the highest first. -/
def bytesOfWord (x : UInt32) : List UInt8 :=
  [(x >>> 24).toUInt8, (x >>> 16).toUInt8, (x >>> 8).toUInt8, x.toUInt8]

/-- The message, a mark, zeros up to the last eight bytes of a block, and the length in bits. -/
def padded (message : List UInt8) : List UInt8 :=
  let n := message.length
  let zeros := (119 - n % 64) % 64
  let bits := 8 * n
  message ++ 0x80 :: List.replicate zeros 0 ++
    (List.range 8).map fun i => UInt8.ofNat (bits / Nat.pow 256 (7 - i))

/-- The next word of a schedule, from the sixteen before it, the latest first. -/
def nextWord (latest : List UInt32) : UInt32 :=
  let w (i : Nat) : UInt32 := latest.getD (i - 1) 0
  let s0 := rotate (w 15) 7 ^^^ rotate (w 15) 18 ^^^ (w 15 >>> 3)
  let s1 := rotate (w 2) 17 ^^^ rotate (w 2) 19 ^^^ (w 2 >>> 10)
  w 16 + s0 + w 7 + s1

/-- A schedule made longer by some words, the latest first. -/
def extend : Nat → List UInt32 → List UInt32
  | 0, latest => latest
  | n + 1, latest => extend n (nextWord latest :: latest)

def schedule (block : List UInt8) : List UInt32 := (extend 48 (words block).reverse).reverse

def round (state : List UInt32) (constant : UInt32 × UInt32) : List UInt32 :=
  match state with
  | [a, b, c, d, e, f, g, h] =>
    let s1 := rotate e 6 ^^^ rotate e 11 ^^^ rotate e 25
    let choice := (e &&& f) ^^^ ((~~~ e) &&& g)
    let t1 := h + s1 + choice + constant.1 + constant.2
    let s0 := rotate a 2 ^^^ rotate a 13 ^^^ rotate a 22
    let majority := (a &&& b) ^^^ (a &&& c) ^^^ (b &&& c)
    [t1 + s0 + majority, a, b, c, d + t1, e, f, g]
  | other => other

def compress (state : List UInt32) (block : List UInt8) : List UInt32 :=
  List.zipWith (· + ·) state ((roundConstants.zip (schedule block)).foldl round state)

/-- A padded message, block by block. -/
def blocks : Nat → List UInt8 → List (List UInt8)
  | 0, _ => []
  | n + 1, bytes => bytes.take 64 :: blocks n (bytes.drop 64)

def sha256 (message : List UInt8) : List UInt8 :=
  let whole := padded message
  ((blocks (whole.length / 64) whole).foldl compress initialState).flatMap bytesOfWord

def sha256Hex (message : List UInt8) : List Char := Text.hexBytes (sha256 message)

theorem length_padded (message : List UInt8) : (padded message).length % 64 = 0 := by
  simp only [padded, List.length_append, List.length_cons, List.length_replicate, List.length_map,
    List.length_range]
  omega

theorem length_round (state : List UInt32) (constant : UInt32 × UInt32)
    (h : state.length = 8) : (round state constant).length = 8 := by
  match state, h with
  | [_, _, _, _, _, _, _, _], _ => rfl

theorem length_rounds (pairs : List (UInt32 × UInt32)) (state : List UInt32)
    (h : state.length = 8) : (pairs.foldl round state).length = 8 := by
  induction pairs generalizing state with
  | nil => exact h
  | cons p pairs ih => exact ih _ (length_round state p h)

theorem length_compress (state : List UInt32) (block : List UInt8) (h : state.length = 8) :
    (compress state block).length = 8 := by
  simp [compress, List.length_zipWith, length_rounds _ state h, h]

theorem length_compressAll (pieces : List (List UInt8)) (state : List UInt32)
    (h : state.length = 8) : (pieces.foldl compress state).length = 8 := by
  induction pieces generalizing state with
  | nil => exact h
  | cons p pieces ih => exact ih _ (length_compress state p h)

theorem length_bytesOfWords (ws : List UInt32) :
    (ws.flatMap bytesOfWord).length = 4 * ws.length := by
  induction ws with
  | nil => rfl
  | cons w ws ih => simp [bytesOfWord, ih]; omega

theorem length_sha256 (message : List UInt8) : (sha256 message).length = 32 := by
  simp only [sha256]
  rw [length_bytesOfWords, length_compressAll _ initialState rfl]

theorem length_hexBytes (bytes : List UInt8) : (Text.hexBytes bytes).length = 2 * bytes.length := by
  induction bytes with
  | nil => rfl
  | cons b bytes ih => simp [Text.hexBytes, Text.hexByte] at ih ⊢; omega

/-- Every digest is written with sixty-four digits. -/
theorem length_sha256Hex (message : List UInt8) : (sha256Hex message).length = 64 := by
  rw [sha256Hex, length_hexBytes, length_sha256]

end PromptRunner.Digest
