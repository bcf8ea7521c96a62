/-! The digest SHA-256.

A message is padded to blocks of 64 bytes; each block is expanded to 64 words, which are mixed one by
one into a state of eight words. -/
namespace ConsentGate.Digest
set_option autoImplicit false
-- Powers are those of the core library, also where Mathlib knows others.
attribute [local instance (high)] instPowNat

structure Words8 where
  a : UInt32
  b : UInt32
  c : UInt32
  d : UInt32
  e : UInt32
  f : UInt32
  g : UInt32
  h : UInt32
  deriving DecidableEq, Repr

namespace Words8

def add (x y : Words8) : Words8 :=
  ⟨x.a + y.a, x.b + y.b, x.c + y.c, x.d + y.d, x.e + y.e, x.f + y.f, x.g + y.g, x.h + y.h⟩

def toList (x : Words8) : List UInt32 := [x.a, x.b, x.c, x.d, x.e, x.f, x.g, x.h]

end Words8

/-- The four bytes of a word, the most significant first. -/
def wordBytes (w : UInt32) : List UInt8 :=
  [(w >>> 24).toUInt8, (w >>> 16).toUInt8, (w >>> 8).toUInt8, w.toUInt8]

def Words8.bytes (x : Words8) : List UInt8 := x.toList.flatMap wordBytes

theorem Words8.length_bytes (x : Words8) : x.bytes.length = 32 := rfl

/-! ## Constants -/

/-- The first 32 bits of the fractional parts of the square roots of the first eight primes. -/
def initial : Words8 :=
  ⟨0x6a09e667, 0xbb67ae85, 0x3c6ef372, 0xa54ff53a, 0x510e527f, 0x9b05688c, 0x1f83d9ab, 0x5be0cd19⟩

/-- The first 32 bits of the fractional parts of the cube roots of the first 64 primes. -/
def roundConstants : List UInt32 :=
  [0x428a2f98, 0x71374491, 0xb5c0fbcf, 0xe9b5dba5, 0x3956c25b, 0x59f111f1, 0x923f82a4, 0xab1c5ed5,
   0xd807aa98, 0x12835b01, 0x243185be, 0x550c7dc3, 0x72be5d74, 0x80deb1fe, 0x9bdc06a7, 0xc19bf174,
   0xe49b69c1, 0xefbe4786, 0x0fc19dc6, 0x240ca1cc, 0x2de92c6f, 0x4a7484aa, 0x5cb0a9dc, 0x76f988da,
   0x983e5152, 0xa831c66d, 0xb00327c8, 0xbf597fc7, 0xc6e00bf3, 0xd5a79147, 0x06ca6351, 0x14292967,
   0x27b70a85, 0x2e1b2138, 0x4d2c6dfc, 0x53380d13, 0x650a7354, 0x766a0abb, 0x81c2c92e, 0x92722c85,
   0xa2bfe8a1, 0xa81a664b, 0xc24b8b70, 0xc76c51a3, 0xd192e819, 0xd6990624, 0xf40e3585, 0x106aa070,
   0x19a4c116, 0x1e376c08, 0x2748774c, 0x34b0bcb5, 0x391c0cb3, 0x4ed8aa4a, 0x5b9cca4f, 0x682e6ff3,
   0x748f82ee, 0x78a5636f, 0x84c87814, 0x8cc70208, 0x90befffa, 0xa4506ceb, 0xbef9a3f7, 0xc67178f2]

/-! ## One block -/

def rotate (w : UInt32) (n : UInt32) : UInt32 := (w >>> n) ||| (w <<< (32 - n))

/-- The words of a block from its bytes. -/
def blockWords : List UInt8 → List UInt32
  | a :: b :: c :: d :: rest =>
    ((a.toUInt32 <<< 24) ||| (b.toUInt32 <<< 16) ||| (c.toUInt32 <<< 8) ||| d.toUInt32) ::
      blockWords rest
  | _ => []

/-- The next word of the schedule from those before it, the latest first. -/
def nextWord (before : List UInt32) : UInt32 :=
  let x := before.getD 14 0
  let y := before.getD 1 0
  let s0 := rotate x 7 ^^^ rotate x 18 ^^^ (x >>> 3)
  let s1 := rotate y 17 ^^^ rotate y 19 ^^^ (y >>> 10)
  before.getD 15 0 + s0 + before.getD 6 0 + s1

/-- The schedule, the latest word first. -/
def extendWords : (count : Nat) → List UInt32 → List UInt32
  | 0, before => before
  | count + 1, before => extendWords count (nextWord before :: before)

def schedule (block : List UInt8) : List UInt32 :=
  (extendWords 48 (blockWords block).reverse).reverse

def mix (x : Words8) (constant word : UInt32) : Words8 :=
  let s1 := rotate x.e 6 ^^^ rotate x.e 11 ^^^ rotate x.e 25
  let choice := (x.e &&& x.f) ^^^ ((~~~ x.e) &&& x.g)
  let t1 := x.h + s1 + choice + constant + word
  let s0 := rotate x.a 2 ^^^ rotate x.a 13 ^^^ rotate x.a 22
  let majority := (x.a &&& x.b) ^^^ (x.a &&& x.c) ^^^ (x.b &&& x.c)
  ⟨t1 + (s0 + majority), x.a, x.b, x.c, x.d + t1, x.e, x.f, x.g⟩

def compress (x : Words8) (block : List UInt8) : Words8 :=
  x.add ((roundConstants.zip (schedule block)).foldl (fun y (k, w) => mix y k w) x)

/-! ## The message -/

/-- A length in bits as eight bytes. -/
def lengthBytes (bits : Nat) : List UInt8 :=
  (List.range 8).map fun i => UInt8.ofNat (bits / 256 ^ (7 - i) % 256)

/-- The message with a one bit, zeros and its length behind it. -/
def padded (message : List UInt8) : List UInt8 :=
  message ++ 128 :: List.replicate ((119 - message.length % 64) % 64) 0 ++
    lengthBytes (8 * message.length)

/-- Mixes in the first `count` blocks. -/
def compressAll : (count : Nat) → List UInt8 → Words8 → Words8
  | 0, _, x => x
  | count + 1, bytes, x => compressAll count (bytes.drop 64) (compress x (bytes.take 64))

def sha256 (message : List UInt8) : List UInt8 :=
  let bytes := padded message
  (compressAll (bytes.length / 64) bytes initial).bytes

theorem length_sha256 (message : List UInt8) : (sha256 message).length = 32 :=
  Words8.length_bytes _

end ConsentGate.Digest
