/-
  UploadGate/Number/Reader.lean
  =============================
  **Integers and floating point numbers in configuration texts and headers.**

  Both readers first bring a text to its plain form: decimal digits of every
  script become the ten ASCII digits, and blanks outside ASCII become spaces.
  ASCII itself is left alone, so the separators U+001C to U+001F are no space
  here.  Between two digits a single underscore may stand.
-/
import UploadGate.Number.Binary64
import UploadGate.Text.Blank
import UploadGate.Text.DecimalDigit

namespace UploadGate.NumberReader

/-! ### The plain form -/

def plain? (c : CodePoint) : Option Char :=
  if c.val < 0x7F then some (Char.ofNat c.val)
  else if c.isBlank then some ' '
  else c.digitValue?.map fun d => Char.ofNat (0x30 + d)

/-- Space, tab, line feed, vertical tab, form feed and carriage return. -/
def isSpace (c : Char) : Bool := c == ' ' || (9 ≤ c.toNat && c.toNat ≤ 13)

/-- The plain form of a text, without space at its ends. -/
def plainForm? (t : Text) : Option (List Char) :=
  (t.mapM plain?).map fun cs => ((cs.dropWhile isSpace).reverse.dropWhile isSpace).reverse

def digit? (c : Char) : Option Nat :=
  if '0' ≤ c && c ≤ '9' then some (c.toNat - 0x30) else none

/-- A sign in front of the rest. -/
def signAndRest : List Char → Bool × List Char
  | '-' :: rest => (true, rest)
  | '+' :: rest => (false, rest)
  | rest => (false, rest)

/-- The text without its underscores, each of which must stand between digits. -/
def withoutUnderscores? (before : Option Nat) : List Char → Option (List Char)
  | [] => some []
  | '_' :: c :: rest =>
    if before.isSome && (digit? c).isSome then (withoutUnderscores? (digit? c) rest).map (c :: ·) else none
  | ['_'] => none
  | c :: rest => (withoutUnderscores? (digit? c) rest).map (c :: ·)

def valueOf (digits : List Nat) : Nat := digits.foldl (fun n d => n * 10 + d) 0

/-! ### Integers -/

/-- An integer may have this many digits, leading zeros counted. -/
def digitLimit : Nat := 4300

/-- Reads an integer: space, a sign, digits, space. -/
def integer? (t : Text) : Option Int := do
  let cs ← plainForm? t
  let (negative, rest) := signAndRest cs
  let figures ← withoutUnderscores? none rest
  let digits ← figures.mapM digit?
  if digits.isEmpty || digitLimit < digits.length then none
  else some (if negative then -(valueOf digits : Int) else valueOf digits)

/-! ### Floating point numbers -/

def takeDigits : List Char → List Nat × List Char
  | [] => ([], [])
  | c :: rest =>
    match digit? c with
    | some d => let (ds, r) := takeDigits rest; (d :: ds, r)
    | none => ([], c :: rest)

def exponent? : List Char → Option Int
  | [] => some 0
  | mark :: rest =>
    if mark = 'e' || mark = 'E' then
      let (negative, rest) := signAndRest rest
      match takeDigits rest with
      | (d :: ds, []) =>
        let n : Int := valueOf (d :: ds)
        some (if negative then -n else n)
      | _ => none
    else none

/-- Reads digits with a point and an exponent, at least one digit before the
    exponent. -/
def decimal? (negative : Bool) (cs : List Char) : Option Binary64 := do
  let (whole, rest) := takeDigits cs
  let (part, rest) :=
    match rest with
    | '.' :: more => takeDigits more
    | _ => ([], rest)
  if whole.isEmpty && part.isEmpty then none
  else
    let exponent ← exponent? rest
    some (Binary64.ofDecimal negative (valueOf (whole ++ part)) (exponent - part.length))

def word? (negative : Bool) (cs : List Char) : Option Binary64 :=
  match String.ofList (cs.map Char.toLower) with
  | "inf" => some (.infinite negative)
  | "infinity" => some (.infinite negative)
  | "nan" => some .nan
  | _ => none

/-- Reads a floating point number: space, a sign, a decimal or a word, space. -/
def binary64? (t : Text) : Option Binary64 := do
  let cs ← plainForm? t
  let cs ← withoutUnderscores? none cs
  let (negative, rest) := signAndRest cs
  match word? negative rest with
  | some x => some x
  | none => decimal? negative rest

end UploadGate.NumberReader
