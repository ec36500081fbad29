/-
  UploadGate/Address/Basic.lean
  =============================
  **Internet addresses of both families.**

  An address is its bits; one of the long family may carry a scope, the name of
  the interface it is valid on.  A long address whose upper 96 bits are the
  prefix `::ffff:` is a short address in disguise and is unwrapped before it is
  compared or shown.
-/
import UploadGate.Text.Basic

namespace UploadGate

inductive Address where
  | v4 (bits : BitVec 32)
  | v6 (bits : BitVec 128) (scope? : Option Text)
deriving DecidableEq, Repr

namespace Address

/-- The short address inside a long one of the form `::ffff:a.b.c.d`. -/
def mapped? (bits : BitVec 128) : Option (BitVec 32) :=
  if bits >>> 32 = 0xFFFF then some (bits.truncate 32) else none

/-- A short address in place of a long one that wraps it. -/
def unwrapped : Address → Address
  | .v4 bits => .v4 bits
  | .v6 bits scope? =>
    match mapped? bits with
    | some short => .v4 short
    | none => .v6 bits scope?

end Address

end UploadGate
