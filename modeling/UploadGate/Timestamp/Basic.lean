/-
  UploadGate/Timestamp/Basic.lean
  ===============================
  **Points in time as a store keeps them, and how they are written.**

  The written form is that of ISO 8601 with hyphens and colons.  Seconds are
  always written, fractions of a second in six digits unless they are zero, and
  the offset of a clock with as much below the minute as it has.
-/
import UploadGate.Text.Basic
import UploadGate.Timestamp.Calendar

namespace UploadGate

/-- A date, a time of day, and the offset of its clock. -/
structure Timestamp where
  year : Nat
  month : Nat
  day : Nat
  hour : Nat := 0
  minute : Nat := 0
  second : Nat := 0
  microsecond : Nat := 0
  /-- Microseconds east of universal time. -/
  offset? : Option Int := none
deriving DecidableEq, Repr

namespace Timestamp

/-! ### Valid dates and times -/

def perSecond : Nat := 1000000

def isOffset (offset : Int) : Bool := offset.natAbs < 86400 * perSecond

def isValid (t : Timestamp) : Bool :=
  1 ≤ t.year && t.year ≤ 9999 && 1 ≤ t.month && t.month ≤ 12
    && 1 ≤ t.day && t.day ≤ Calendar.daysIn t.year t.month
    && t.hour < 24 && t.minute < 60 && t.second < 60 && t.offset?.all isOffset

/-! ### Writing -/

/-- A number in decimal, filled with zeros to a width. -/
def padded (width n : Nat) : Text :=
  let digits := Text.ofNat n
  List.replicate (width - digits.length) (.ofChar '0') ++ digits

/-- A number of two digits behind a mark. -/
def marked (mark : Char) (n : Nat) : Text := .ofChar mark :: padded 2 n

def fractionText (microseconds : Nat) : Text :=
  if microseconds = 0 then [] else .ofChar '.' :: padded 6 microseconds

def offsetText (offset : Int) : Text :=
  let seconds := offset.natAbs / perSecond
  let fraction := offset.natAbs % perSecond
  (if offset < 0 then .ofChar '-' else .ofChar '+') :: padded 2 (seconds / 3600)
    ++ marked ':' (seconds / 60 % 60)
    ++ (if seconds % 60 = 0 && fraction = 0 then [] else marked ':' (seconds % 60))
    ++ fractionText fraction

def text (t : Timestamp) : Text :=
  padded 4 t.year ++ marked '-' t.month ++ marked '-' t.day ++ marked 'T' t.hour ++ marked ':' t.minute
    ++ marked ':' t.second ++ fractionText t.microsecond ++ t.offset?.elim [] offsetText

end Timestamp

end UploadGate
