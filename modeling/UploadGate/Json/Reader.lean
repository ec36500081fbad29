/-
  UploadGate/Json/Reader.lean
  ===========================
  **Reading JSON texts.**

  The grammar is the standard one with three more words for numbers: `NaN`,
  `Infinity` and `-Infinity`.  A number with a fraction or an exponent is a
  floating point number, any other an integer, which may be limited in its
  digits.  Escapes of a surrogate pair join to one code point; a lone surrogate
  stays.  Of two members with one name the last value counts, at the place of
  the first.  Each array and each object is read one level deeper on the stack,
  and a stack has an end.
-/
import UploadGate.Json.Basic
import UploadGate.Number.Reader

namespace UploadGate.Json

inductive ReadError where
  | malformed
  /-- An integer has more digits than allowed. -/
  | integerTooLong
  /-- An array or an object stands deeper than the stack reaches. -/
  | nestedTooDeep
deriving DecidableEq, Repr

/-- How far a reader goes, without a bound where none is given. -/
structure Limits where
  /-- The most digits of an integer. -/
  digits? : Option Nat := none
  /-- The most arrays and objects around each other. -/
  depth? : Option Nat := none
deriving DecidableEq, Repr

/-- The limits inside one more array or object, if the stack reaches there. -/
def Limits.inside? (limits : Limits) : Option Limits :=
  match limits.depth? with
  | none => some limits
  | some 0 => none
  | some (depth + 1) => some { limits with depth? := some depth }

/-- What a reader found, and the text behind it. -/
abbrev Found (α : Type) := Except ReadError (α × Text)

def isSpace (c : CodePoint) : Bool := c.val == 0x20 || c.val == 9 || c.val == 0x0A || c.val == 0x0D

def skipSpace (t : Text) : Text := t.dropWhile isSpace

/-! ### Texts -/

/-- The number that four hexadecimal digits write, and the text behind them. -/
def hex4? : Text → Option (Nat × Text)
  | a :: b :: c :: d :: rest => do
    let w ← a.hexValue?
    let x ← b.hexValue?
    let y ← c.hexValue?
    let z ← d.hexValue?
    some (((w * 16 + x) * 16 + y) * 16 + z, rest)
  | _ => none

def simpleEscape? (c : CodePoint) : Option CodePoint :=
  match c.val with
  | 0x22 => some 0x22
  | 0x5C => some 0x5C
  | 0x2F => some 0x2F
  | 0x62 => some 8
  | 0x66 => some 0x0C
  | 0x6E => some 0x0A
  | 0x72 => some 0x0D
  | 0x74 => some 9
  | _ => none

/-- The low surrogate escaped at the front, and the text behind it. -/
def lowSurrogate? : Text → Option (Nat × Text)
  | b :: u :: rest =>
    if b.val = 0x5C && u.val = 0x75 then
      match hex4? rest with
      | some (n, rest) => if 0xDC00 ≤ n && n < 0xE000 then some (n, rest) else none
      | none => none
    else none
  | _ => none

/-- The code point escaped behind `\u`, a surrogate pair counting as one. -/
def unicodeEscape? (t : Text) : Option (CodePoint × Text) :=
  match hex4? t with
  | none => none
  | some (n, rest) =>
    if 0xD800 ≤ n && n < 0xDC00 then
      match lowSurrogate? rest with
      | some (low, rest) =>
        some (.ofNat 0x110000 (0x10000 + (n - 0xD800) * 0x400 + (low - 0xDC00)), rest)
      | none => some (.ofNat 0x110000 n, rest)
    else some (.ofNat 0x110000 n, rest)

/-- Reads the inside of a text up to its closing quote; `fuel` bounds the number
    of code points. -/
def readText : Nat → Text → Found Text
  | 0, _ => .error .malformed
  | _, [] => .error .malformed
  | fuel + 1, c :: rest =>
    if c.val = 0x22 then .ok ([], rest)
    else if c.val < 0x20 then .error .malformed
    else if c.val = 0x5C then
      match rest with
      | [] => .error .malformed
      | e :: rest =>
        let escaped? := if e.val = 0x75 then unicodeEscape? rest else (simpleEscape? e).map (·, rest)
        match escaped? with
        | none => .error .malformed
        | some (d, rest) =>
          match readText fuel rest with
          | .ok (t, rest) => .ok (d :: t, rest)
          | .error e => .error e
    else
      match readText fuel rest with
      | .ok (t, rest) => .ok (c :: t, rest)
      | .error e => .error e

/-! ### Numbers -/

/-- The ASCII digits at the front as values, and the rest. -/
def takeDigits : Text → List Nat × Text
  | [] => ([], [])
  | c :: rest =>
    if c.isAsciiDigit then
      let (digits, rest) := takeDigits rest
      ((c.val - 0x30) :: digits, rest)
    else ([], c :: rest)

def takeFraction (t : Text) : Option (List Nat) × Text :=
  match t with
  | point :: rest =>
    if point.val = 0x2E then
      match takeDigits rest with
      | ([], _) => (none, t)
      | (digits, rest) => (some digits, rest)
    else (none, t)
  | [] => (none, t)

def takeExponent (t : Text) : Option Int × Text :=
  match t with
  | mark :: rest =>
    if mark.val = 0x65 || mark.val = 0x45 then
      let (negative, rest) :=
        match rest with
        | s :: more => if s.val = 0x2D then (true, more) else if s.val = 0x2B then (false, more) else (false, rest)
        | [] => (false, rest)
      match takeDigits rest with
      | ([], _) => (none, t)
      | (digits, rest) =>
        let n : Int := NumberReader.valueOf digits
        (some (if negative then -n else n), rest)
    else (none, t)
  | [] => (none, t)

/-- The digits of a whole number: a zero alone, or digits that start otherwise. -/
def takeWhole : Text → Option (List Nat × Text)
  | [] => none
  | c :: rest =>
    if c.val = 0x30 then some ([0], rest)
    else if c.isAsciiDigit then some (takeDigits (c :: rest))
    else none

def readNumber (limits : Limits) (negative : Bool) (t : Text) : Found Number :=
  match takeWhole t with
  | none => .error .malformed
  | some (whole, rest) =>
    let (fraction?, rest) := takeFraction rest
    let (exponent?, rest) := takeExponent rest
    match fraction?, exponent? with
    | none, none =>
      if limits.digits?.any (· < whole.length) then .error .integerTooLong
      else
        let n : Int := NumberReader.valueOf whole
        .ok (.integer (if negative then -n else n), rest)
    | _, _ =>
      let part := fraction?.getD []
      let coefficient := NumberReader.valueOf (whole ++ part)
      .ok (.real (Binary64.ofDecimal negative coefficient (exponent?.getD 0 - part.length)), rest)

/-! ### Values -/

def words : List (Text × Json) :=
  [(Text.of "null", .null), (Text.of "true", .bool true), (Text.of "false", .bool false),
    (Text.of "NaN", .number (.real .nan)), (Text.of "Infinity", .number (.real (.infinite false))),
    (Text.of "-Infinity", .number (.real (.infinite true)))]

def takeWord? (t : Text) : Option (Json × Text) :=
  words.findSome? fun (word, j) => (Text.dropFront? word t).map (j, ·)

/-- Reads a value without brackets and quotes: a word or a number. -/
def readPlain (limits : Limits) (t : Text) : Found Json :=
  match takeWord? t with
  | some found => .ok found
  | none =>
    let (negative, rest) :=
      match t with
      | c :: more => if c.val = 0x2D then (true, more) else (false, t)
      | [] => (false, t)
    (readNumber limits negative rest).map fun (n, rest) => (.number n, rest)

mutual

def readValue (limits : Limits) : Nat → Text → Found Json
  | 0, _ => .error .malformed
  | _, [] => .error .malformed
  | fuel + 1, c :: rest =>
    if c.val = 0x22 then (readText (rest.length + 1) rest).map fun (t, rest) => (.text t, rest)
    else if c.val = 0x7B then
      match limits.inside? with
      | none => .error .nestedTooDeep
      | some inside =>
        match skipSpace rest with
        | d :: more =>
          if d.val = 0x7D then .ok (.object [], more)
          else (readMembers inside fuel [] (d :: more)).map fun (members, rest) => (.object members, rest)
        | [] => .error .malformed
    else if c.val = 0x5B then
      match limits.inside? with
      | none => .error .nestedTooDeep
      | some inside =>
        match skipSpace rest with
        | d :: more =>
          if d.val = 0x5D then .ok (.array [], more)
          else (readItems inside fuel (d :: more)).map fun (items, rest) => (.array items, rest)
        | [] => .error .malformed
    else readPlain limits (c :: rest)

def readItems (limits : Limits) : Nat → Text → Found (List Json)
  | 0, _ => .error .malformed
  | fuel + 1, t =>
    match readValue limits fuel t with
    | .error e => .error e
    | .ok (item, rest) =>
      match skipSpace rest with
      | c :: rest =>
        if c.val = 0x5D then .ok ([item], rest)
        else if c.val = 0x2C then
          (readItems limits fuel (skipSpace rest)).map fun (items, rest) => (item :: items, rest)
        else .error .malformed
      | [] => .error .malformed

def readMembers (limits : Limits) : Nat → OrderedMap Text Json → Text → Found (OrderedMap Text Json)
  | 0, _, _ => .error .malformed
  | _, _, [] => .error .malformed
  | fuel + 1, before, quote :: rest =>
    if quote.val ≠ 0x22 then .error .malformed
    else
      match readText (rest.length + 1) rest with
      | .error e => .error e
      | .ok (name, rest) =>
        match skipSpace rest with
        | colon :: rest =>
          if colon.val ≠ 0x3A then .error .malformed
          else
            match readValue limits fuel (skipSpace rest) with
            | .error e => .error e
            | .ok (j, rest) =>
              let members := before.set name j
              match skipSpace rest with
              | c :: rest =>
                if c.val = 0x7D then .ok (members, rest)
                else if c.val = 0x2C then readMembers limits fuel members (skipSpace rest)
                else .error .malformed
              | [] => .error .malformed
        | [] => .error .malformed

end

/-- Reads a text that holds one value and nothing else.  Two levels of the reading take
    a code point away, so twice the length of the text bounds it. -/
def read (limits : Limits) (t : Text) : Except ReadError Json :=
  match readValue limits (2 * t.length + 1) (skipSpace t) with
  | .error e => .error e
  | .ok (j, rest) => if (skipSpace rest).isEmpty then .ok j else .error .malformed

end UploadGate.Json
