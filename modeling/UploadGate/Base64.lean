/-
  UploadGate/Base64.lean
  ======================
  **Base64 in the two dialects of upload requests.**

  Metadata values use the standard alphabet and are padded; a padding sign more
  than needed is let through only behind complete groups of four.  Token
  segments use the URL alphabet and are padded completely or not at all.  In
  both, the unused low bits of the last data character are ignored, so several
  texts may stand for the same octets; `encode` writes the one whose unused bits
  are zero.
-/
import UploadGate.Text.Basic

namespace UploadGate.Base64

/-! ### Alphabets -/

/-- The two characters in which the alphabets differ. -/
structure Alphabet where
  char62 : CodePoint
  char63 : CodePoint
deriving DecidableEq, Repr

def standard : Alphabet := ⟨.ofChar '+', .ofChar '/'⟩

def urlSafe : Alphabet := ⟨.ofChar '-', .ofChar '_'⟩

def pad : CodePoint := .ofChar '='

def Alphabet.value? (α : Alphabet) (c : CodePoint) : Option (BitVec 6) :=
  let n := c.val
  if 0x41 ≤ n && n ≤ 0x5A then some (.ofNat 6 (n - 0x41))
  else if 0x61 ≤ n && n ≤ 0x7A then some (.ofNat 6 (n - 0x61 + 26))
  else if 0x30 ≤ n && n ≤ 0x39 then some (.ofNat 6 (n - 0x30 + 52))
  else if c = α.char62 then some 62
  else if c = α.char63 then some 63
  else none

def Alphabet.char (α : Alphabet) (v : BitVec 6) : CodePoint :=
  let n := v.toNat
  have : n < 64 := v.isLt
  if n < 26 then ⟨0x41 + n, by omega⟩
  else if n < 52 then ⟨0x61 + (n - 26), by omega⟩
  else if n < 62 then ⟨0x30 + (n - 52), by omega⟩
  else if n = 62 then α.char62
  else α.char63

/-! ### Groups of six bits and octets -/

/-- The octet that starts in `x`. -/
def octet1 (x y : BitVec 6) : UInt8 := .ofNat (x.toNat * 4 + y.toNat / 16)

def octet2 (y z : BitVec 6) : UInt8 := .ofNat (y.toNat % 16 * 16 + z.toNat / 4)

def octet3 (z w : BitVec 6) : UInt8 := .ofNat (z.toNat % 4 * 64 + w.toNat)

/-! ### Reading -/

/-- Reads padded text, `inside` being set once a complete group of four has been
    read. -/
def decodePaddedFrom (α : Alphabet) (inside : Bool) : Text → Option Bytes
  | [] => some []
  | a :: b :: c :: d :: rest =>
    match α.value? a, α.value? b, α.value? c, α.value? d with
    | some x, some y, some z, some w =>
      (decodePaddedFrom α true rest).map ([octet1 x y, octet2 y z, octet3 z w] ++ ·)
    | some x, some y, some z, none =>
      if d = pad && rest.isEmpty then some [octet1 x y, octet2 y z] else none
    | some x, some y, none, none =>
      if c = pad && d = pad && rest.isEmpty then some [octet1 x y] else none
    | _, _, _, _ =>
      if inside && a = pad && b = pad && c = pad && d = pad && rest.all (· = pad) then some [] else none
  | short => if inside && short.all (· = pad) then some [] else none

/-- Reads the padded form of a metadata value. -/
def decodePadded? (t : Text) : Option Bytes := decodePaddedFrom standard false t

def decodeBare (α : Alphabet) : Text → Option Bytes
  | [] => some []
  | [_] => none
  | [a, b] => do
    let x ← α.value? a
    let y ← α.value? b
    some [octet1 x y]
  | [a, b, c] => do
    let x ← α.value? a
    let y ← α.value? b
    let z ← α.value? c
    some [octet1 x y, octet2 y z]
  | a :: b :: c :: d :: rest => do
    let x ← α.value? a
    let y ← α.value? b
    let z ← α.value? c
    let w ← α.value? d
    let more ← decodeBare α rest
    some ([octet1 x y, octet2 y z, octet3 z w] ++ more)

/-- Reads a token segment: URL alphabet, with either no padding or all of it. -/
def decodeSegment? (t : Text) : Option Bytes :=
  let data := t.takeWhile (· ≠ pad)
  let padding := t.dropWhile (· ≠ pad)
  if padding.all (· = pad) && padding.length ≤ 2
      && (padding.isEmpty || (data.length + padding.length) % 4 == 0) then
    decodeBare urlSafe data
  else none

/-! ### Writing -/

def encodeWith (α : Alphabet) : Bytes → Text
  | [] => []
  | [a] =>
    let n := a.toNat
    [α.char (.ofNat 6 (n / 4)), α.char (.ofNat 6 (n % 4 * 16)), pad, pad]
  | [a, b] =>
    let n := a.toNat * 0x100 + b.toNat
    [α.char (.ofNat 6 (n / 0x400)), α.char (.ofNat 6 (n / 0x10)), α.char (.ofNat 6 (n % 0x10 * 4)), pad]
  | a :: b :: c :: rest =>
    let n := (a.toNat * 0x100 + b.toNat) * 0x100 + c.toNat
    α.char (.ofNat 6 (n / 0x40000)) :: α.char (.ofNat 6 (n / 0x1000)) :: α.char (.ofNat 6 (n / 0x40))
      :: α.char (.ofNat 6 n) :: encodeWith α rest

def encode (bytes : Bytes) : Text := encodeWith standard bytes

end UploadGate.Base64
