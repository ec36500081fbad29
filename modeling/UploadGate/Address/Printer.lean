/-
  UploadGate/Address/Printer.lean
  ===============================
  **Writing internet addresses in their canonical form.**

  Short addresses are four decimal octets.  Long ones are groups in lowercase
  hexadecimal without leading zeros, and the longest run of at least two zero
  groups, the first of several, becomes `::`.
-/
import UploadGate.Address.Basic

namespace UploadGate.Address

def text4 (bits : BitVec 32) : Text :=
  Text.join (Text.of ".") <| [24, 16, 8, 0].map fun shift => Text.ofNat ((bits >>> shift).toNat % 256)

def groups (bits : BitVec 128) : List Nat :=
  [112, 96, 80, 64, 48, 32, 16, 0].map fun shift => (bits >>> shift).toNat % 0x10000

def zeroRun (gs : List Nat) : Nat := (gs.takeWhile (· = 0)).length

/-- The start and length of the longest run of zero groups, the first of several. -/
def longestZeroRun (gs : List Nat) : Nat × Nat :=
  (List.range gs.length).foldl
    (fun best i => let n := zeroRun (gs.drop i); if best.2 < n then (i, n) else best) (0, 0)

/-- Groups in hexadecimal between colons. -/
def groupsText (gs : List Nat) : Text := Text.join (Text.of ":") (gs.map Text.ofHex)

def text6 (bits : BitVec 128) : Text :=
  let gs := groups bits
  let (start, length) := longestZeroRun gs
  if length < 2 then groupsText gs
  else groupsText (gs.take start) ++ Text.of "::" ++ groupsText (gs.drop (start + length))

def text : Address → Text
  | .v4 bits => text4 bits
  | .v6 bits none => text6 bits
  | .v6 bits (some scope) => text6 bits ++ .ofChar '%' :: scope

end UploadGate.Address
