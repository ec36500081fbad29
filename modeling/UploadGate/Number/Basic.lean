/-
  UploadGate/Number/Basic.lean
  ============================
  **Integers and floating point numbers side by side, compared exactly.**

  A time in a token or a metric value is an integer of any size or a floating
  point number.  The order looks at the exact values, so no integer is rounded
  before it is compared; a NaN stands in no order to anything.
-/
import UploadGate.Number.Binary64

namespace UploadGate

inductive Number where
  | integer (n : Int)
  | real (x : Binary64)
deriving DecidableEq, Repr

namespace Number

/-- A place on the number line with its two ends. -/
inductive Place where
  | below
  | at (q : Rat)
  | above
deriving DecidableEq, Repr

def Place.lt : Place → Place → Bool
  | .below, .below => false
  | .below, _ => true
  | .at p, .at q => p < q
  | .at _, .above => true
  | .at _, .below => false
  | .above, _ => false

/-- Where a number stands; a NaN stands nowhere. -/
def place? : Number → Option Place
  | .integer n => some (.at n)
  | .real (.infinite negative) => some (if negative then .below else .above)
  | .real x => x.value?.map .at

def lt (a b : Number) : Bool :=
  match a.place?, b.place? with
  | some p, some q => p.lt q
  | _, _ => false

/-- The nearest floating point number, if the integer is not beyond all of them. -/
def toBinary64? : Number → Option Binary64
  | .integer n => Binary64.ofInt? n
  | .real x => some x

end Number

end UploadGate
