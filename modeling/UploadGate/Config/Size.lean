/-
  UploadGate/Config/Size.lean
  ===========================
  **Sizes such as `10MB` in configuration texts.**

  A size is a floating point number with a unit of 1, 1024, 1024² or 1024³
  octets, in any letter case; its fraction of an octet is dropped.  The longer
  units are tried before `b`, which is the end of all of them.
-/
import UploadGate.Failure
import UploadGate.Number.Reader
import UploadGate.Text.LetterCase

namespace UploadGate.Size

/-- The units in the order in which they are tried, each with the power of two
    that it stands for. -/
def units : List (Text × Nat) :=
  [(Text.of "gb", 30), (Text.of "mb", 20), (Text.of "kb", 10), (Text.of "b", 0)]

/-- The number in front of the unit, and the power of two of the unit. -/
def cutUnit (t : Text) : Text × Nat :=
  (units.findSome? fun (unit, power) => (Text.dropEnd? unit t).map (·, power)).getD (t, 0)

def parse (given : Text) : Except Failure Int :=
  let t := given.strip.lower
  let (figures, power) := cutUnit t
  match NumberReader.binary64? figures with
  | none => .error (.config (.size t))
  | some x =>
    match x.scaleUp power with
    | .nan => .error (.config (.size t))
    | .infinite _ => .error (.value .outOfRange)
    | y => .ok (y.truncate?.getD 0)

end UploadGate.Size
