import Netbaiot.Lib.Bytes

/-!
# SHA-256

Hash functions with 32-byte digests, and the one of FIPS 180-4.
-/

namespace Netbaiot.Lib

/-- A hash function with 32-byte digests. -/
structure Sha256 where
  digest : List UInt8 → List UInt8
  length_digest : ∀ message, (digest message).length = 32

namespace Sha256

/-- Rotate a word to the right. -/
def rotr (x : UInt32) (n : UInt32) : UInt32 := (x >>> n) ||| (x <<< (32 - n))

/-- The round constants. -/
def constants : List UInt32 :=
  [0x428a2f98, 0x71374491, 0xb5c0fbcf, 0xe9b5dba5, 0x3956c25b, 0x59f111f1, 0x923f82a4, 0xab1c5ed5,
    0xd807aa98, 0x12835b01, 0x243185be, 0x550c7dc3, 0x72be5d74, 0x80deb1fe, 0x9bdc06a7, 0xc19bf174,
    0xe49b69c1, 0xefbe4786, 0x0fc19dc6, 0x240ca1cc, 0x2de92c6f, 0x4a7484aa, 0x5cb0a9dc, 0x76f988da,
    0x983e5152, 0xa831c66d, 0xb00327c8, 0xbf597fc7, 0xc6e00bf3, 0xd5a79147, 0x06ca6351, 0x14292967,
    0x27b70a85, 0x2e1b2138, 0x4d2c6dfc, 0x53380d13, 0x650a7354, 0x766a0abb, 0x81c2c92e, 0x92722c85,
    0xa2bfe8a1, 0xa81a664b, 0xc24b8b70, 0xc76c51a3, 0xd192e819, 0xd6990624, 0xf40e3585, 0x106aa070,
    0x19a4c116, 0x1e376c08, 0x2748774c, 0x34b0bcb5, 0x391c0cb3, 0x4ed8aa4a, 0x5b9cca4f, 0x682e6ff3,
    0x748f82ee, 0x78a5636f, 0x84c87814, 0x8cc70208, 0x90befffa, 0xa4506ceb, 0xbef9a3f7, 0xc67178f2]

/-- The working variables of a compression, which are also the chaining value. -/
structure Chain where
  (a b c d e f g h : UInt32)

/-- The chaining value a digest starts from. -/
def initial : Chain :=
  ⟨0x6a09e667, 0xbb67ae85, 0x3c6ef372, 0xa54ff53a, 0x510e527f, 0x9b05688c, 0x1f83d9ab, 0x5be0cd19⟩

/-- Append a one bit, zeros and the bit length, up to a multiple of 64 bytes. -/
def pad (message : List UInt8) : List UInt8 :=
  message ++ 128 :: List.replicate ((119 - message.length % 64) % 64) 0 ++
    beBytes 8 (message.length * 8)

/-- The big-endian words of a byte string. -/
def words : List UInt8 → List UInt32
  | a :: b :: c :: d :: rest =>
    (a.toUInt32 <<< 24 ||| b.toUInt32 <<< 16 ||| c.toUInt32 <<< 8 ||| d.toUInt32) :: words rest
  | _ => []

/-- The next word of a message schedule that is kept with its newest word first. -/
def nextWord (schedule : List UInt32) : UInt32 :=
  let w := fun i => schedule.getD (i - 1) 0
  let s₀ := rotr (w 15) 7 ^^^ rotr (w 15) 18 ^^^ (w 15) >>> 3
  let s₁ := rotr (w 2) 17 ^^^ rotr (w 2) 19 ^^^ (w 2) >>> 10
  w 16 + s₀ + w 7 + s₁

/-- The message schedule of a block of sixteen words. -/
def schedule (block : List UInt32) : List UInt32 :=
  ((List.range 48).foldl (fun newest _ => nextWord newest :: newest) block.reverse).reverse

/-- One round of a compression. -/
def round (s : Chain) (k w : UInt32) : Chain :=
  let t₁ := s.h + (rotr s.e 6 ^^^ rotr s.e 11 ^^^ rotr s.e 25) +
    ((s.e &&& s.f) ^^^ ((~~~ s.e) &&& s.g)) + k + w
  let t₂ := (rotr s.a 2 ^^^ rotr s.a 13 ^^^ rotr s.a 22) +
    ((s.a &&& s.b) ^^^ (s.a &&& s.c) ^^^ (s.b &&& s.c))
  ⟨t₁ + t₂, s.a, s.b, s.c, s.d + t₁, s.e, s.f, s.g⟩

/-- Compress one block into the chaining value. -/
def compress (s : Chain) (block : List UInt32) : Chain :=
  let t := (constants.zip (schedule block)).foldl (fun t kw => round t kw.1 kw.2) s
  ⟨s.a + t.a, s.b + t.b, s.c + t.c, s.d + t.d, s.e + t.e, s.f + t.f, s.g + t.g, s.h + t.h⟩

/-- Compress all blocks of a padded message, given by their number. -/
def compressAll : ℕ → Chain → List UInt32 → Chain
  | 0, s, _ => s
  | blocks + 1, s, stream => compressAll blocks (compress s (stream.take 16)) (stream.drop 16)

/-- The hash function of FIPS 180-4. -/
def standard : Sha256 where
  digest message :=
    let stream := words (pad message)
    let s := compressAll (stream.length / 16) initial stream
    [s.a, s.b, s.c, s.d, s.e, s.f, s.g, s.h].flatMap fun word => beBytes 4 word.toNat
  length_digest _ := by simp

end Sha256

end Netbaiot.Lib
