/-
  UploadGate/Address/Parser.lean
  ==============================
  **Reading internet addresses.**

  A short address is four octets in decimal, without leading zeros.  A long one
  is eight groups of up to four hexadecimal digits; once, `::` may stand for one
  or more groups of zeros, and the last two groups may be written as a short
  address.  A scope follows behind `%`.
-/
import UploadGate.Address.Basic

namespace UploadGate.Address

/-! ### Short addresses -/

/-- Reads an octet: at most three digits, a zero in front only alone. -/
def octet? (t : Text) : Option (BitVec 8) :=
  if 3 < t.length || (1 < t.length && t.head? = some (.ofChar '0')) then none
  else
    match Text.decimal? t with
    | some n => if n < 256 then some (.ofNat 8 n) else none
    | none => none

def bits4? (t : Text) : Option (BitVec 32) :=
  match t.splitOn (.ofChar '.') with
  | [a, b, c, d] => do
    let a ← octet? a
    let b ← octet? b
    let c ← octet? c
    let d ← octet? d
    some (a ++ b ++ c ++ d)
  | _ => none

/-! ### Long addresses -/

/-- Reads a group of one to four hexadecimal digits. -/
def group? (t : Text) : Option (BitVec 16) :=
  if t.isEmpty || 4 < t.length then none
  else (t.mapM CodePoint.hexValue?).map fun ds => .ofNat 16 (ds.foldl (fun n d => n * 16 + d) 0)

/-- The pieces of a long address with a short address at the end written as two
    groups. -/
def withoutDots? (pieces : List Text) : Option (List Text) :=
  match pieces.getLast? with
  | some last =>
    if last.contains (.ofChar '.') then
      (bits4? last).map fun (bits : BitVec 32) =>
        pieces.dropLast ++ [Text.ofHex (bits >>> 16).toNat, Text.ofHex (bits.truncate 16).toNat]
    else some pieces
  | none => some pieces

/-- Whether the piece at a position is empty and has pieces on both sides. -/
def isGap (pieces : List Text) (i : Nat) : Bool := 0 < i && i + 1 < pieces.length && pieces[i]? = some []

/-- The pieces on one side of `::`, where the address may begin or end with it. -/
def besideGap (pieces : List Text) : List Text := if pieces = [[]] then [] else pieces

def groups? (pieces : List Text) : Option (List (BitVec 16)) :=
  match (List.range pieces.length).filter (isGap pieces) with
  | [] => if pieces.length = 8 then pieces.mapM group? else none
  | [gap] => do
    let high ← (besideGap (pieces.take gap)).mapM group?
    let low ← (besideGap (pieces.drop (gap + 1))).mapM group?
    if high.length + low.length < 8 then
      some (high ++ List.replicate (8 - (high.length + low.length)) 0 ++ low)
    else none
  | _ => none

def joinGroups (groups : List (BitVec 16)) : BitVec 128 :=
  groups.foldl (fun bits g => (bits <<< 16) ||| g.zeroExtend 128) 0

def bits6? (t : Text) : Option (BitVec 128) := do
  let pieces := t.splitOn (.ofChar ':')
  if pieces.length < 3 then none
  else
    let pieces ← withoutDots? pieces
    let groups ← groups? pieces
    some (joinGroups groups)

/-- The text of a long address and its scope, which must not be empty. -/
def splitScope? (t : Text) : Option (Text × Option Text) :=
  match t.cut? (.ofChar '%') with
  | none => some (t, none)
  | some (front, scope) =>
    if scope.isEmpty || scope.contains (.ofChar '%') then none else some (front, some scope)

def long? (t : Text) : Option (BitVec 128 × Option Text) :=
  if t.contains (.ofChar '/') then none
  else do
    let (front, scope?) ← splitScope? t
    let bits ← bits6? front
    some (bits, scope?)

def parse? (t : Text) : Option Address :=
  match bits4? t with
  | some bits => some (.v4 bits)
  | none => (long? t).map fun (bits, scope?) => .v6 bits scope?

end UploadGate.Address
