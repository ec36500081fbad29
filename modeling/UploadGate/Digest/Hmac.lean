/-
  UploadGate/Digest/Hmac.lean
  ===========================
  **Keyed message authentication by HMAC.**

  The key is brought to the size of a hash block, by hashing it first when it is
  longer, and enters an inner and an outer hash through two paddings.
-/
import UploadGate.Digest.Sha2

namespace UploadGate

inductive HashFunction where
  | sha256
  | sha384
  | sha512
deriving DecidableEq, Repr

def HashFunction.digest : HashFunction → Bytes → Bytes
  | .sha256 => Sha2.digest Sha2.sha256
  | .sha384 => Sha2.digest Sha2.sha384
  | .sha512 => Sha2.digest Sha2.sha512

def HashFunction.blockSize : HashFunction → Nat
  | .sha256 => 64
  | .sha384 => 128
  | .sha512 => 128

/-- A key filled with zeros to the block size, hashed first when it is longer. -/
def HashFunction.blockKey (h : HashFunction) (key : Bytes) : Bytes :=
  let short := if key.length ≤ h.blockSize then key else h.digest key
  short ++ List.replicate (h.blockSize - short.length) 0

def HashFunction.hmac (h : HashFunction) (key message : Bytes) : Bytes :=
  let block := h.blockKey key
  let inner := h.digest (block.map (· ^^^ 0x36) ++ message)
  h.digest (block.map (· ^^^ 0x5C) ++ inner)

end UploadGate
