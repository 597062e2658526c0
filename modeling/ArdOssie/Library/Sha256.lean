import Mathlib

/-!
# SHA-256

The hash function on lists of bytes.  Words are natural numbers below `2 ^ 32`; every addition is reduced modulo
`2 ^ 32`.  The digest is the natural number with the 32 bytes of the hash as its big-endian digits.
-/

namespace ArdOssie.Sha256

/-- Addition of words. -/
def add (a b : ℕ) : ℕ := (a + b) % 2 ^ 32

/-- Rotation of a word to the right. -/
def rotr (n x : ℕ) : ℕ := (x >>> n) ||| ((x <<< (32 - n)) % 2 ^ 32)

/-- The round constants. -/
def roundConstants : List ℕ :=
  [0x428a2f98, 0x71374491, 0xb5c0fbcf, 0xe9b5dba5, 0x3956c25b, 0x59f111f1, 0x923f82a4, 0xab1c5ed5,
    0xd807aa98, 0x12835b01, 0x243185be, 0x550c7dc3, 0x72be5d74, 0x80deb1fe, 0x9bdc06a7, 0xc19bf174,
    0xe49b69c1, 0xefbe4786, 0x0fc19dc6, 0x240ca1cc, 0x2de92c6f, 0x4a7484aa, 0x5cb0a9dc, 0x76f988da,
    0x983e5152, 0xa831c66d, 0xb00327c8, 0xbf597fc7, 0xc6e00bf3, 0xd5a79147, 0x06ca6351, 0x14292967,
    0x27b70a85, 0x2e1b2138, 0x4d2c6dfc, 0x53380d13, 0x650a7354, 0x766a0abb, 0x81c2c92e, 0x92722c85,
    0xa2bfe8a1, 0xa81a664b, 0xc24b8b70, 0xc76c51a3, 0xd192e819, 0xd6990624, 0xf40e3585, 0x106aa070,
    0x19a4c116, 0x1e376c08, 0x2748774c, 0x34b0bcb5, 0x391c0cb3, 0x4ed8aa4a, 0x5b9cca4f, 0x682e6ff3,
    0x748f82ee, 0x78a5636f, 0x84c87814, 0x8cc70208, 0x90befffa, 0xa4506ceb, 0xbef9a3f7, 0xc67178f2]

/-- The eight working words. -/
structure State where
  a : ℕ
  b : ℕ
  c : ℕ
  d : ℕ
  e : ℕ
  f : ℕ
  g : ℕ
  h : ℕ

/-- The initial hash value. -/
def State.initial : State :=
  ⟨0x6a09e667, 0xbb67ae85, 0x3c6ef372, 0xa54ff53a, 0x510e527f, 0x9b05688c, 0x1f83d9ab, 0x5be0cd19⟩

/-- One round with a round constant and a word of the message schedule. -/
def round (s : State) (k w : ℕ) : State :=
  let t₁ := add s.h (add (rotr 6 s.e ^^^ rotr 11 s.e ^^^ rotr 25 s.e)
    (add ((s.e &&& s.f) ^^^ ((2 ^ 32 - 1 - s.e) &&& s.g)) (add k w)))
  let t₂ := add (rotr 2 s.a ^^^ rotr 13 s.a ^^^ rotr 22 s.a) ((s.a &&& s.b) ^^^ (s.a &&& s.c) ^^^ (s.b &&& s.c))
  ⟨add t₁ t₂, s.a, s.b, s.c, add s.d t₁, s.e, s.f, s.g⟩

/-- The rounds over the constants; the schedule is a window of sixteen words that grows as the rounds proceed. -/
def rounds : List ℕ → List ℕ → State → State
  | k :: ks, w :: ws, s =>
    let w₁ := ws.getD 0 0
    let w₁₄ := ws.getD 13 0
    let next := add (rotr 17 w₁₄ ^^^ rotr 19 w₁₄ ^^^ (w₁₄ >>> 10))
      (add (ws.getD 8 0) (add (rotr 7 w₁ ^^^ rotr 18 w₁ ^^^ (w₁ >>> 3)) w))
    rounds ks (ws ++ [next]) (round s k w)
  | _, _, s => s

/-- The compression of one block of sixteen words. -/
def compress (s : State) (block : List ℕ) : State :=
  let t := rounds roundConstants block s
  ⟨add s.a t.a, add s.b t.b, add s.c t.c, add s.d t.d, add s.e t.e, add s.f t.f, add s.g t.g, add s.h t.h⟩

/-- The big-endian number of a list of digits in base `2 ^ bits`. -/
def ofDigits (bits : ℕ) (digits : List ℕ) : ℕ := digits.foldl (fun n d => n * 2 ^ bits + d) 0

/-- The `count` big-endian bytes of a number. -/
def toBytes (count n : ℕ) : List ℕ := ((List.range count).map fun i => n / 256 ^ i % 256).reverse

/-- Cut a list into `count` pieces of the given size. -/
def pieces {α : Type} (size : ℕ) : ℕ → List α → List (List α)
  | 0, _ => []
  | count + 1, l => l.take size :: pieces size count (l.drop size)

/-- The message with its padding: a one bit, zero bits, and the length in bits. -/
def pad (message : List ℕ) : List ℕ :=
  message ++ 128 :: (List.replicate ((119 - message.length % 64) % 64) 0 ++ toBytes 8 (8 * message.length))

/-- The digest of a list of bytes, as a number. -/
def digest (message : List ℕ) : ℕ :=
  let padded := pad message
  let blocks := (pieces 64 (padded.length / 64) padded).map fun block => (pieces 4 16 block).map (ofDigits 8)
  let s := blocks.foldl compress State.initial
  ofDigits 32 [s.a, s.b, s.c, s.d, s.e, s.f, s.g, s.h]

example : digest [97, 98, 99] = 0xba7816bf8f01cfea414140de5dae2223b00361a396177a9cb410ff61f20015ad := by
  decide +kernel

end ArdOssie.Sha256
