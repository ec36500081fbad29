/-
  UploadGate/Number/Shortest.lean
  ===============================
  **The shortest decimal text that reads back as the same number.**

  The reals that round to a number form an interval.  For one digit, two digits
  and so on, the number's two neighbours on the decimal grid with that many
  digits are tried; the first grid with a neighbour inside the interval wins,
  and of two neighbours the nearer.  Seventeen digits always suffice.
-/
import UploadGate.Number.Binary64
import UploadGate.Text.Basic

namespace UploadGate

namespace Binary64

/-! ### Digits -/

/-- A decimal: `coefficient` times a power of ten. -/
structure Decimal where
  coefficient : Nat
  power : Int
deriving DecidableEq, Repr

def Decimal.value (d : Decimal) : Rat := d.coefficient * (10 : Rat) ^ d.power

/-- The two ends of the interval of reals that round to `mantissa * 2^exponent`.
    Below a power of two the numbers lie twice as dense. -/
def roundingEnds (mantissa : Nat) (exponent : Int) : Rat × Rat :=
  let half := (2 : Rat) ^ (exponent - 1)
  let lower := if mantissa = Nat.pow 2 52 && exponent ≠ -1074 then half / 2 else half
  let value := mantissa * (2 : Rat) ^ exponent
  (value - lower, value + half)

/-- Whether a rational rounds to `mantissa * 2^exponent`; the ends do so for an
    even mantissa. -/
def roundsTo (mantissa : Nat) (exponent : Int) (q : Rat) : Bool :=
  let (low, high) := roundingEnds mantissa exponent
  if mantissa % 2 = 0 then low ≤ q && q ≤ high else low < q && q < high

/-- The greatest integer whose power of ten is at most a positive rational. -/
def decimalMagnitude (q : Rat) : Int :=
  let guess : Int := ((Nat.log2 q.num.natAbs : Int) - Nat.log2 q.den) * 30103 / 100000
  if (10 : Rat) ^ (guess + 1) ≤ q then guess + 1
  else if (10 : Rat) ^ guess ≤ q then guess
  else if (10 : Rat) ^ (guess - 1) ≤ q then guess - 1
  else guess - 2

/-- The better of the two neighbours of `value` on the grid of a power of ten,
    if one of them rounds to the number. -/
def neighbour? (mantissa : Nat) (exponent : Int) (value : Rat) (power : Int) : Option Decimal :=
  let position := value / (10 : Rat) ^ power
  let down := position.floor.toNat
  let low : Decimal := ⟨down, power⟩
  let high : Decimal := ⟨down + 1, power⟩
  let lowFits := 0 < down && roundsTo mantissa exponent low.value
  let highFits := roundsTo mantissa exponent high.value
  let downward := position - down
  if lowFits && highFits then
    if downward < 1 / 2 then some low
    else if 1 / 2 < downward then some high
    else some (if down % 2 = 0 then low else high)
  else if lowFits then some low
  else if highFits then some high
  else none

/-- The shortest decimal, tried from `digits` digits on with `fuel` grids left. -/
def shortestFrom (mantissa : Nat) (exponent : Int) (value : Rat) (magnitude : Int) :
    Nat → Nat → Decimal
  | 0, _ => ⟨mantissa, exponent⟩
  | fuel + 1, digits =>
    match neighbour? mantissa exponent value (magnitude - digits + 1) with
    | some d => d
    | none => shortestFrom mantissa exponent value magnitude fuel (digits + 1)

/-- The shortest decimal that rounds to `mantissa * 2^exponent`, which is not zero. -/
def shortest (mantissa : Nat) (exponent : Int) : Decimal :=
  let value := mantissa * (2 : Rat) ^ exponent
  shortestFrom mantissa exponent value (decimalMagnitude value) 18 1

/-! ### Text -/

/-- A positive decimal in figures: positional while the leading digit stands
    for 10^-4 to 10^15, with an exponent of at least two figures otherwise.  A
    positional integer ends in `.0`. -/
def Decimal.text (d : Decimal) : Text :=
  let all := Text.ofNat d.coefficient
  let digits := Text.dropRightWhile (· = .ofChar '0') all
  let point : Int := all.length + d.power
  let zeros (n : Int) : Text := List.replicate n.toNat (.ofChar '0')
  if -4 < point && point ≤ 16 then
    if point ≤ 0 then Text.of "0." ++ zeros (-point) ++ digits
    else
      let whole := digits.take point.toNat ++ zeros (point - digits.length)
      let part := digits.drop point.toNat
      whole ++ .ofChar '.' :: (if part.isEmpty then Text.of "0" else part)
  else
    let exponent := point - 1
    let figures := Text.ofNat exponent.natAbs
    let mark := if exponent < 0 then Text.of "e-" else Text.of "e+"
    let part := digits.drop 1
    digits.take 1 ++ (if part.isEmpty then [] else .ofChar '.' :: part)
      ++ mark ++ List.replicate (2 - figures.length) (.ofChar '0') ++ figures

def text : Binary64 → Text
  | .nan => Text.of "nan"
  | .infinite negative => if negative then Text.of "-inf" else Text.of "inf"
  | .finite negative mantissa exponent =>
    let figures := if mantissa = 0 then Text.of "0.0" else (shortest mantissa exponent).text
    if negative then .ofChar '-' :: figures else figures

end Binary64

end UploadGate
