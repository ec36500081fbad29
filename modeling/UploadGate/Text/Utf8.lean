/-
  UploadGate/Text/Utf8.lean
  =========================
  **UTF-8, with and without an escape for foreign octets.**

  One scan cuts octets into *pieces*: a code point in its shortest UTF-8 form,
  or a stray octet that starts no such form.  The strict reading refuses stray
  octets; the escaping reading turns the stray octet `b` into the surrogate
  U+DC00 + b, and escaping writing turns it back, so that any octets survive a
  round trip through text.  A surrogate outside U+DC80 to U+DCFF has no octets.
-/
import UploadGate.Text.Basic

namespace UploadGate.Utf8

/-! ### Pieces of an octet sequence -/

inductive Piece where
  | scalar (c : CodePoint)
  | stray (b : UInt8)
deriving DecidableEq, Repr

def isTail (b : UInt8) : Bool := 0x80 ≤ b.toNat && b.toNat < 0xC0

/-- A code point that is no surrogate and at least as large as the shortest form
    in use demands. -/
def scalar? (least n : Nat) : Option CodePoint :=
  if h : n < 0x110000 then
    if least ≤ n && !(0xD800 ≤ n && n < 0xE000) then some ⟨n, h⟩ else none
  else none

/-- The code point that starts with the octet `a`, and how many of the octets
    that follow belong to it. -/
def sequence? (a : UInt8) (rest : Bytes) : Option (CodePoint × Nat) :=
  let n := a.toNat
  if n < 0x80 then (scalar? 0 n).map (·, 0)
  else if n < 0xC0 then none
  else if n < 0xE0 then
    match rest with
    | b :: _ =>
      if isTail b then (scalar? 0x80 (n % 0x20 * 0x40 + b.toNat % 0x40)).map (·, 1) else none
    | _ => none
  else if n < 0xF0 then
    match rest with
    | b :: c :: _ =>
      if isTail b && isTail c then
        (scalar? 0x800 ((n % 0x10 * 0x40 + b.toNat % 0x40) * 0x40 + c.toNat % 0x40)).map (·, 2)
      else none
    | _ => none
  else if n < 0xF8 then
    match rest with
    | b :: c :: d :: _ =>
      if isTail b && isTail c && isTail d then
        (scalar? 0x10000
          (((n % 8 * 0x40 + b.toNat % 0x40) * 0x40 + c.toNat % 0x40) * 0x40
            + d.toNat % 0x40)).map (·, 3)
      else none
    | _ => none
  else none

/-- The pieces of an octet sequence, when its first `taken` octets belong to a
    piece already found. -/
def scanFrom : Nat → Bytes → List Piece
  | _, [] => []
  | taken + 1, _ :: rest => scanFrom taken rest
  | 0, a :: rest =>
    match sequence? a rest with
    | some (c, more) => .scalar c :: scanFrom more rest
    | none => .stray a :: scanFrom 0 rest

def scan (bytes : Bytes) : List Piece := scanFrom 0 bytes

/-! ### Reading -/

/-- The surrogate that stands for a stray octet. -/
def escape (b : UInt8) : CodePoint :=
  ⟨0xDC00 + b.toNat, by have := b.toNat_lt; omega⟩

def decode? (bytes : Bytes) : Option Text :=
  (scan bytes).mapM fun
    | .scalar c => some c
    | .stray _ => none

/-- Reads any octets, each stray one as its escape. -/
def decodeEscaped (bytes : Bytes) : Text :=
  (scan bytes).map fun
    | .scalar c => c
    | .stray b => escape b

/-! ### Writing -/

/-- The shortest UTF-8 form of a code point's number. -/
def octets (c : CodePoint) : Bytes :=
  let n := c.val
  if n < 0x80 then [.ofNat n]
  else if n < 0x800 then [.ofNat (0xC0 + n / 0x40), .ofNat (0x80 + n % 0x40)]
  else if n < 0x10000 then
    [.ofNat (0xE0 + n / 0x1000), .ofNat (0x80 + n / 0x40 % 0x40), .ofNat (0x80 + n % 0x40)]
  else
    [.ofNat (0xF0 + n / 0x40000), .ofNat (0x80 + n / 0x1000 % 0x40),
      .ofNat (0x80 + n / 0x40 % 0x40), .ofNat (0x80 + n % 0x40)]

def octets? (c : CodePoint) : Option Bytes := if c.isSurrogate then none else some (octets c)

/-- The octets of a code point, an escape being the octet it stands for. -/
def octetsEscaped? (c : CodePoint) : Option Bytes :=
  if 0xDC80 ≤ c.val && c.val ≤ 0xDCFF then some [.ofNat (c.val - 0xDC00)] else octets? c

def encode? (t : Text) : Option Bytes := (t.mapM octets?).map List.flatten

/-- Writes a text whose surrogates are all escapes. -/
def encodeEscaped? (t : Text) : Option Bytes := (t.mapM octetsEscaped?).map List.flatten

end UploadGate.Utf8
