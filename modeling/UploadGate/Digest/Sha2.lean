/-
  UploadGate/Digest/Sha2.lean
  ===========================
  **The SHA-2 hash functions SHA-256, SHA-384 and SHA-512.**

  One compression function serves all three: the variants differ in the width of
  a word, the rotation distances, the number of rounds and the start values.
  The constants of the narrow variant are the high halves of the wide ones.
-/
import UploadGate.Text.Basic

namespace UploadGate.Sha2

/-! ### Variants -/

/-- The parameters of a SHA-2 function with words of `w` bits.  A rotation
    triple ends in a rotation (`big`) or a shift (`small`). -/
structure Variant (w : Nat) where
  constants : List (BitVec w)
  big0 : Nat × Nat × Nat
  big1 : Nat × Nat × Nat
  small0 : Nat × Nat × Nat
  small1 : Nat × Nat × Nat
  start : List (BitVec w)
  /-- The number of octets of the digest. -/
  digestSize : Nat

/-- The first 64 fractional bits of the cube roots of the first 80 primes. -/
def wideConstants : List (BitVec 64) :=
  [0x428a2f98d728ae22, 0x7137449123ef65cd, 0xb5c0fbcfec4d3b2f, 0xe9b5dba58189dbbc,
    0x3956c25bf348b538, 0x59f111f1b605d019, 0x923f82a4af194f9b, 0xab1c5ed5da6d8118,
    0xd807aa98a3030242, 0x12835b0145706fbe, 0x243185be4ee4b28c, 0x550c7dc3d5ffb4e2,
    0x72be5d74f27b896f, 0x80deb1fe3b1696b1, 0x9bdc06a725c71235, 0xc19bf174cf692694,
    0xe49b69c19ef14ad2, 0xefbe4786384f25e3, 0x0fc19dc68b8cd5b5, 0x240ca1cc77ac9c65,
    0x2de92c6f592b0275, 0x4a7484aa6ea6e483, 0x5cb0a9dcbd41fbd4, 0x76f988da831153b5,
    0x983e5152ee66dfab, 0xa831c66d2db43210, 0xb00327c898fb213f, 0xbf597fc7beef0ee4,
    0xc6e00bf33da88fc2, 0xd5a79147930aa725, 0x06ca6351e003826f, 0x142929670a0e6e70,
    0x27b70a8546d22ffc, 0x2e1b21385c26c926, 0x4d2c6dfc5ac42aed, 0x53380d139d95b3df,
    0x650a73548baf63de, 0x766a0abb3c77b2a8, 0x81c2c92e47edaee6, 0x92722c851482353b,
    0xa2bfe8a14cf10364, 0xa81a664bbc423001, 0xc24b8b70d0f89791, 0xc76c51a30654be30,
    0xd192e819d6ef5218, 0xd69906245565a910, 0xf40e35855771202a, 0x106aa07032bbd1b8,
    0x19a4c116b8d2d0c8, 0x1e376c085141ab53, 0x2748774cdf8eeb99, 0x34b0bcb5e19b48a8,
    0x391c0cb3c5c95a63, 0x4ed8aa4ae3418acb, 0x5b9cca4f7763e373, 0x682e6ff3d6b2b8a3,
    0x748f82ee5defb2fc, 0x78a5636f43172f60, 0x84c87814a1f0ab72, 0x8cc702081a6439ec,
    0x90befffa23631e28, 0xa4506cebde82bde9, 0xbef9a3f7b2c67915, 0xc67178f2e372532b,
    0xca273eceea26619c, 0xd186b8c721c0c207, 0xeada7dd6cde0eb1e, 0xf57d4f7fee6ed178,
    0x06f067aa72176fba, 0x0a637dc5a2c898a6, 0x113f9804bef90dae, 0x1b710b35131c471b,
    0x28db77f523047d84, 0x32caab7b40c72493, 0x3c9ebe0a15c9bebc, 0x431d67c49c100d4c,
    0x4cc5d4becb3e42b6, 0x597f299cfc657e2a, 0x5fcb6fab3ad6faec, 0x6c44198c4a475817]

/-- The first 64 fractional bits of the square roots of the first 8 primes. -/
def wideStart : List (BitVec 64) :=
  [0x6a09e667f3bcc908, 0xbb67ae8584caa73b, 0x3c6ef372fe94f82b, 0xa54ff53a5f1d36f1,
    0x510e527fade682d1, 0x9b05688c2b3e6c1f, 0x1f83d9abfb41bd6b, 0x5be0cd19137e2179]

/-- The first 64 fractional bits of the square roots of the 9th to 16th primes. -/
def wideStart384 : List (BitVec 64) :=
  [0xcbbb9d5dc1059ed8, 0x629a292a367cd507, 0x9159015a3070dd17, 0x152fecd8f70e5939,
    0x67332667ffc00b31, 0x8eb44a8768581511, 0xdb0c2e0d64f98fa7, 0x47b5481dbefa4fa4]

def highHalf (x : BitVec 64) : BitVec 32 := (x >>> 32).truncate 32

def sha256 : Variant 32 where
  constants := (wideConstants.take 64).map highHalf
  big0 := (2, 13, 22)
  big1 := (6, 11, 25)
  small0 := (7, 18, 3)
  small1 := (17, 19, 10)
  start := wideStart.map highHalf
  digestSize := 32

/-- SHA-512. -/
def sha512 : Variant 64 where
  constants := wideConstants
  big0 := (28, 34, 39)
  big1 := (14, 18, 41)
  small0 := (1, 8, 7)
  small1 := (19, 61, 6)
  start := wideStart
  digestSize := 64

/-- SHA-384: SHA-512 with other start values, cut to 48 octets. -/
def sha384 : Variant 64 := { sha512 with start := wideStart384, digestSize := 48 }

/-! ### Words and octets -/

/-- The number that octets write, most significant first. -/
def bigEndian (bytes : Bytes) : Nat := bytes.foldl (fun n b => n * 0x100 + b.toNat) 0

def toBigEndian : Nat → Nat → Bytes
  | 0, _ => []
  | count + 1, n => .ofNat (n / Nat.pow 0x100 count) :: toBigEndian count n

/-- `count` pieces of `size` elements each, from the front. -/
def pieces {α : Type} (size : Nat) : Nat → List α → List (List α)
  | 0, _ => []
  | count + 1, xs => xs.take size :: pieces size count (xs.drop size)

/-! ### The compression function -/

section Compression

variable {w : Nat} (v : Variant w)

def rotations (r : Nat × Nat × Nat) (x : BitVec w) : BitVec w :=
  x.rotateRight r.1 ^^^ x.rotateRight r.2.1 ^^^ x.rotateRight r.2.2

def rotationsAndShift (r : Nat × Nat × Nat) (x : BitVec w) : BitVec w :=
  x.rotateRight r.1 ^^^ x.rotateRight r.2.1 ^^^ (x >>> r.2.2)

/-- Adds `count` words in front of a message schedule kept newest first. -/
def extend : Nat → List (BitVec w) → List (BitVec w)
  | 0, words => words
  | count + 1, words =>
    let word := rotationsAndShift v.small1 (words.getD 1 0) + words.getD 6 0
      + rotationsAndShift v.small0 (words.getD 14 0) + words.getD 15 0
    extend count (word :: words)

def schedule (block : List (BitVec w)) : List (BitVec w) :=
  (extend v (v.constants.length - 16) block.reverse).reverse

structure Working (w : Nat) where
  a : BitVec w
  b : BitVec w
  c : BitVec w
  d : BitVec w
  e : BitVec w
  f : BitVec w
  g : BitVec w
  h : BitVec w

def Working.round (s : Working w) (constant word : BitVec w) : Working w :=
  let choice := (s.e &&& s.f) ^^^ (~~~s.e &&& s.g)
  let t1 := s.h + rotations v.big1 s.e + choice + constant + word
  let majority := (s.a &&& s.b) ^^^ (s.a &&& s.c) ^^^ (s.b &&& s.c)
  let t2 := rotations v.big0 s.a + majority
  ⟨t1 + t2, s.a, s.b, s.c, s.d + t1, s.e, s.f, s.g⟩

def Working.ofList (words : List (BitVec w)) : Working w :=
  ⟨words.getD 0 0, words.getD 1 0, words.getD 2 0, words.getD 3 0,
    words.getD 4 0, words.getD 5 0, words.getD 6 0, words.getD 7 0⟩

def Working.toList (s : Working w) : List (BitVec w) := [s.a, s.b, s.c, s.d, s.e, s.f, s.g, s.h]

def compress (chain : List (BitVec w)) (block : List (BitVec w)) : List (BitVec w) :=
  let rounds := v.constants.zip (schedule v block)
  let final := rounds.foldl (fun s (constant, word) => s.round v constant word) (Working.ofList chain)
  List.zipWith (· + ·) chain final.toList

/-! ### The hash of a message -/

/-- Octets of a word, and of a block of sixteen words. -/
def wordSize (_ : Variant w) : Nat := w / 8

def blockSize : Nat := 16 * wordSize v

/-- The message followed by a one bit, zeros, and its length in bits, filling
    whole blocks. -/
def padded (message : Bytes) : Bytes :=
  let size := blockSize v
  let lengthSize := 2 * wordSize v
  let used := message.length + 1 + lengthSize
  message ++ 0x80 :: List.replicate ((size - used % size) % size) 0
    ++ toBigEndian lengthSize (8 * message.length)

def blockWords (block : Bytes) : List (BitVec w) :=
  (pieces (wordSize v) 16 block).map fun word => BitVec.ofNat w (bigEndian word)

def digest (message : Bytes) : Bytes :=
  let whole := padded v message
  let blocks := pieces (blockSize v) (whole.length / blockSize v) whole
  let chain := blocks.foldl (fun chain block => compress v chain (blockWords v block)) v.start
  (chain.flatMap fun word => toBigEndian (wordSize v) word.toNat).take v.digestSize

end Compression

end UploadGate.Sha2
