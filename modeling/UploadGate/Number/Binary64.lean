/-
  UploadGate/Number/Binary64.lean
  ===============================
  **Binary floating point numbers of 64 bits, computed exactly.**

  A finite number is a sign, a natural mantissa below 2^53 and a power of two.
  Every operation computes its exact rational result and rounds once, to the
  nearest number and from a tie to the even mantissa, so nothing here depends on
  the arithmetic of a machine and every law can be stated on rationals.
-/

namespace UploadGate

/-! ### Numbers and their values -/

/-- A 64-bit binary floating point number.  The finite ones that arithmetic
    produces are normalised: the mantissa has 53 bits unless the exponent is
    the least, -1074. -/
inductive Binary64 where
  | nan
  | infinite (negative : Bool)
  | finite (negative : Bool) (mantissa : Nat) (exponent : Int)
deriving DecidableEq, Repr

namespace Binary64

def signed (negative : Bool) (q : Rat) : Rat := if negative then -q else q

def value? : Binary64 → Option Rat
  | .finite negative mantissa exponent => some (signed negative (mantissa * (2 : Rat) ^ exponent))
  | _ => none

def zero (negative : Bool) : Binary64 := .finite negative 0 (-1074)

/-! ### Rounding -/

/-- The integer nearest to a quotient, the even one of two. -/
def nearestEven (num den : Nat) : Nat :=
  let quotient := num / den
  let twice := 2 * (num % den)
  if twice < den then quotient
  else if den < twice then quotient + 1
  else quotient + quotient % 2

/-- A quotient divided by a power of two, as numerator and denominator. -/
def scaled (num den : Nat) (exponent : Int) : Nat × Nat :=
  if 0 ≤ exponent then (num, den * Nat.pow 2 exponent.toNat)
  else (num * Nat.pow 2 (-exponent).toNat, den)

/-- The exponent at which a positive quotient has a mantissa of 53 bits, or the
    least exponent for a smaller quotient. -/
def exponentOf (num den : Nat) : Int :=
  let guess : Int := (Nat.log2 num : Int) - Nat.log2 den - 53
  let (n, d) := scaled num den guess
  max (if Nat.pow 2 53 * d ≤ n then guess + 1 else guess) (-1074)

/-- The number nearest to the quotient of two natural numbers, with a sign. -/
def ofQuotient (negative : Bool) (num den : Nat) : Binary64 :=
  if num = 0 then zero negative
  else
    let exponent := exponentOf num den
    let (n, d) := scaled num den exponent
    let mantissa := nearestEven n d
    let (mantissa, exponent) :=
      if mantissa = Nat.pow 2 53 then (Nat.pow 2 52, exponent + 1) else (mantissa, exponent)
    if 971 < exponent then .infinite negative else .finite negative mantissa exponent

/-- The number nearest to a rational; `negative` is the sign of a zero. -/
def ofRat (negative : Bool) (q : Rat) : Binary64 :=
  if q = 0 then zero negative else ofQuotient (q.num < 0) q.num.natAbs q.den

/-- The number nearest to `coefficient` times a power of ten. -/
def ofDecimal (negative : Bool) (coefficient : Nat) (power : Int) : Binary64 :=
  let magnitude : Int := (Nat.toDigits 10 coefficient).length + power
  if coefficient = 0 || magnitude < -400 then zero negative
  else if 400 < magnitude then .infinite negative
  else if 0 ≤ power then ofQuotient negative (coefficient * Nat.pow 10 power.toNat) 1
  else ofQuotient negative coefficient (Nat.pow 10 (-power).toNat)

/-- The number nearest to an integer, if the integer is not beyond all of them. -/
def ofInt? (n : Int) : Option Binary64 :=
  match ofQuotient (n < 0) n.natAbs 1 with
  | .infinite _ => none
  | x => some x

/-! ### Arithmetic -/

/-- The rounded sum.  Two zeros add to a negative zero only if both are negative. -/
def add : Binary64 → Binary64 → Binary64
  | .nan, _ => .nan
  | _, .nan => .nan
  | .infinite a, .infinite b => if a = b then .infinite a else .nan
  | .infinite a, .finite .. => .infinite a
  | .finite .., .infinite b => .infinite b
  | .finite a m e, .finite b n f =>
    ofRat (a && b) (signed a (m * (2 : Rat) ^ e) + signed b (n * (2 : Rat) ^ f))

def scaleUp (power : Nat) : Binary64 → Binary64
  | .finite negative mantissa exponent =>
    let (num, den) := scaled mantissa 1 (-(exponent + power))
    ofQuotient negative num den
  | x => x

def truncate? : Binary64 → Option Int
  | .finite negative mantissa exponent =>
    let magnitude : Nat :=
      if 0 ≤ exponent then mantissa * Nat.pow 2 exponent.toNat
      else mantissa / Nat.pow 2 (-exponent).toNat
    some (if negative then -(magnitude : Int) else magnitude)
  | _ => none

end Binary64

end UploadGate
