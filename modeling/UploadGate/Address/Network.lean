/-
  UploadGate/Address/Network.lean
  ===============================
  **Ranges of addresses that share a prefix.**

  A range is written as an address, a slash and the length of the prefix; in the
  short family a netmask or its complement may stand for the length.  Bits
  behind the prefix are cleared when a range is read, so a range has one form.
-/
import UploadGate.Address.Parser
import UploadGate.Address.Printer
import UploadGate.Number.Reader

namespace UploadGate

inductive Network where
  | v4 (bits : BitVec 32) (length : Nat)
  | v6 (bits : BitVec 128) (scope? : Option Text) (length : Nat)
deriving DecidableEq, Repr

namespace Network

/-! ### Masks -/

/-- The mask of a prefix: `length` ones, then zeros. -/
def mask (w length : Nat) : BitVec w := BitVec.allOnes w <<< (w - length)

/-- The length of the prefix whose mask this is. -/
def maskLength? {w : Nat} (bits : BitVec w) : Option Nat :=
  (List.range (w + 1)).find? fun length => mask w length = bits

/-- Reads a prefix length of at most `w`. -/
def prefixLength? (w : Nat) (t : Text) : Option Nat :=
  if NumberReader.digitLimit < t.length then none else (Text.decimal? t).filter (· ≤ w)

/-- Reads what stands behind the slash in the short family: a length, a netmask
    or the complement of a netmask. -/
def length4? (t : Text) : Option Nat :=
  match prefixLength? 32 t with
  | some n => some n
  | none =>
    match Address.bits4? t with
    | none => none
    | some bits =>
      match maskLength? bits with
      | some n => some n
      | none => maskLength? (~~~bits)

/-! ### Reading and writing -/

def parse4? (address : Text) (length : Option Text) : Option Network := do
  let bits ← Address.bits4? address
  let n ← length.elim (some 32) length4?
  some (.v4 (bits &&& mask 32 n) n)

/-- Reads a range of the long family.  The scope goes with bits that are cleared. -/
def parse6? (address : Text) (length : Option Text) : Option Network := do
  let (bits, scope?) ← Address.long? address
  let n ← length.elim (some 128) (prefixLength? 128)
  let cleared := bits &&& mask 128 n
  some (.v6 cleared (if cleared = bits then scope? else none) n)

def parse? (t : Text) : Option Network :=
  match t.splitOn (.ofChar '/') with
  | [address] => (parse4? address none).or (parse6? address none)
  | [address, length] => (parse4? address (some length)).or (parse6? address (some length))
  | _ => none

def text : Network → Text
  | .v4 bits length => (Address.v4 bits).text ++ .ofChar '/' :: Text.ofNat length
  | .v6 bits scope? length => (Address.v6 bits scope?).text ++ .ofChar '/' :: Text.ofNat length

/-! ### Membership -/

def contains : Network → Address → Bool
  | .v4 bits length, .v4 address => address &&& mask 32 length = bits
  | .v6 bits _ length, .v6 address _ => address &&& mask 128 length = bits
  | _, _ => false

end Network

end UploadGate
