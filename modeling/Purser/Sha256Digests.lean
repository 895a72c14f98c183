import Mathlib.Data.List.Basic

/-!
# SHA-256

The digest of a message, in lower-case hexadecimal digits.  The message is
padded to whole blocks of 64 bytes, and each block is mixed into eight words in
64 rounds.
-/

namespace Purser.Sha256Digests

/-- The fractional parts of the cube roots of the first 64 primes. -/
def roundConstants : List UInt32 :=
  [0x428a2f98, 0x71374491, 0xb5c0fbcf, 0xe9b5dba5, 0x3956c25b, 0x59f111f1, 0x923f82a4, 0xab1c5ed5,
    0xd807aa98, 0x12835b01, 0x243185be, 0x550c7dc3, 0x72be5d74, 0x80deb1fe, 0x9bdc06a7, 0xc19bf174,
    0xe49b69c1, 0xefbe4786, 0x0fc19dc6, 0x240ca1cc, 0x2de92c6f, 0x4a7484aa, 0x5cb0a9dc, 0x76f988da,
    0x983e5152, 0xa831c66d, 0xb00327c8, 0xbf597fc7, 0xc6e00bf3, 0xd5a79147, 0x06ca6351, 0x14292967,
    0x27b70a85, 0x2e1b2138, 0x4d2c6dfc, 0x53380d13, 0x650a7354, 0x766a0abb, 0x81c2c92e, 0x92722c85,
    0xa2bfe8a1, 0xa81a664b, 0xc24b8b70, 0xc76c51a3, 0xd192e819, 0xd6990624, 0xf40e3585, 0x106aa070,
    0x19a4c116, 0x1e376c08, 0x2748774c, 0x34b0bcb5, 0x391c0cb3, 0x4ed8aa4a, 0x5b9cca4f, 0x682e6ff3,
    0x748f82ee, 0x78a5636f, 0x84c87814, 0x8cc70208, 0x90befffa, 0xa4506ceb, 0xbef9a3f7, 0xc67178f2]

structure Registers where
  a : UInt32
  b : UInt32
  c : UInt32
  d : UInt32
  e : UInt32
  f : UInt32
  g : UInt32
  h : UInt32

def initial : Registers :=
  ⟨0x6a09e667, 0xbb67ae85, 0x3c6ef372, 0xa54ff53a, 0x510e527f, 0x9b05688c, 0x1f83d9ab, 0x5be0cd19⟩

def rotateRight (word amount : UInt32) : UInt32 := word >>> amount ||| word <<< (32 - amount)

def words : List UInt8 → List UInt32
  | first :: second :: third :: fourth :: rest =>
    (first.toUInt32 <<< 24 ||| second.toUInt32 <<< 16 ||| third.toUInt32 <<< 8 |||
      fourth.toUInt32) :: words rest
  | _ => []

def nextWord (earlier : List UInt32) : UInt32 :=
  let second := earlier.getD 1 0
  let fifteenth := earlier.getD 14 0
  (rotateRight second 17 ^^^ rotateRight second 19 ^^^ second >>> 10) + earlier.getD 6 0 +
    (rotateRight fifteenth 7 ^^^ rotateRight fifteenth 18 ^^^ fifteenth >>> 3) + earlier.getD 15 0

def extend : ℕ → List UInt32 → List UInt32
  | 0, earlier => earlier
  | count + 1, earlier => extend count (nextWord earlier :: earlier)

def schedule (block : List UInt8) : List UInt32 := (extend 48 (words block).reverse).reverse

def round (state : Registers) (mixed : UInt32 × UInt32) : Registers :=
  let { a, b, c, d, e, f, g, h } := state
  let first := h + (rotateRight e 6 ^^^ rotateRight e 11 ^^^ rotateRight e 25) +
    ((e &&& f) ^^^ (~~~e &&& g)) + mixed.1 + mixed.2
  let second := (rotateRight a 2 ^^^ rotateRight a 13 ^^^ rotateRight a 22) +
    ((a &&& b) ^^^ (a &&& c) ^^^ (b &&& c))
  ⟨first + second, a, b, c, d + first, e, f, g⟩

def compress (state : Registers) (block : List UInt8) : Registers :=
  let mixed := (roundConstants.zip (schedule block)).foldl round state
  ⟨state.a + mixed.a, state.b + mixed.b, state.c + mixed.c, state.d + mixed.d,
    state.e + mixed.e, state.f + mixed.f, state.g + mixed.g, state.h + mixed.h⟩

def padding (length : ℕ) : List UInt8 :=
  let zeros : List UInt8 := List.replicate ((119 - length % 64) % 64) 0
  let size := (List.range 8).reverse.map fun place => UInt8.ofNat ((length * 8) >>> (8 * place))
  0x80 :: zeros ++ size

def blocks : ℕ → List UInt8 → List (List UInt8)
  | 0, _ => []
  | count + 1, bytes => bytes.take 64 :: blocks count (bytes.drop 64)

def hexDigits (word : UInt32) : List Char :=
  (List.range 8).reverse.map fun place =>
    Nat.digitChar (word.toNat >>> (4 * place) % 16)

def sha256 (message : List UInt8) : String :=
  let padded := message ++ padding message.length
  let final := (blocks (padded.length / 64) padded).foldl compress initial
  String.ofList ([final.a, final.b, final.c, final.d, final.e, final.f, final.g, final.h].flatMap
    hexDigits)

def digest (message : List UInt8) : List UInt8 :=
  let padded := message ++ padding message.length
  let final := (blocks (padded.length / 64) padded).foldl compress initial
  let bytes (word : UInt32) : List UInt8 :=
    [(word >>> 24).toUInt8, (word >>> 16).toUInt8, (word >>> 8).toUInt8, word.toUInt8]
  [final.a, final.b, final.c, final.d, final.e, final.f, final.g, final.h].flatMap bytes

theorem length_digest (message : List UInt8) : (digest message).length = 32 := rfl

/-- No two of the messages have one digest. -/
def CollisionFree (messages : List (List UInt8)) : Prop :=
  ∀ first ∈ messages, ∀ second ∈ messages, digest first = digest second → first = second

example : sha256 [97, 98, 99] =
    "ba7816bf8f01cfea414140de5dae2223b00361a396177a9cb410ff61f20015ad" := by
  decide +kernel

-- Two blocks, and a length of more than one byte.
example : sha256 (List.replicate 92 0x61) =
    "bb882439013bfb093c58bbe94a21da6a04a510da9a6c9697bb4ae8dd67418a2b" := by
  decide +kernel

end Purser.Sha256Digests
