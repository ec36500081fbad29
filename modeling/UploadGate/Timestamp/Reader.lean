/-
  UploadGate/Timestamp/Reader.lean
  ================================
  **Reading timestamps in any of the forms of ISO 8601.**

  A date is a day of a month or a weekday of a week, with hyphens or without; the
  weekday may be left out.  How the date begins tells how long it is, so any one
  code point may stand between date and time.  A time has hours, or minutes too,
  or seconds too, with colons or without, and a fraction behind the last of
  these.  An offset is written like a time behind a sign; `Z` is an offset of
  zero.

  Two liberties are kept.  The null character ends a time like the end of the
  text does.  In front of an offset, one octet may follow a time unread, and any
  text may follow a fraction of six digits or more.
-/
import UploadGate.Failure
import UploadGate.Timestamp.Basic

namespace UploadGate.Timestamp

/-! ### Marks and numbers -/

def isAt (t : Text) (i : Nat) (c : Char) : Bool := t[i]? = some (.ofChar c)

def isDigitAt (t : Text) (i : Nat) : Bool := t[i]?.any CodePoint.isAsciiDigit

/-- The number that a number of digits at the front write, and the text behind
    them. -/
def takeNumber? (width : Nat) (t : Text) : Option (Nat × Text) :=
  if t.length < width then none else (Text.decimal? (t.take width)).map (·, t.drop width)

/-- The text behind a hyphen at the front, if there has to be one. -/
def dropHyphen? (isExtended : Bool) (t : Text) : Option Text :=
  if isExtended then Text.dropFront? (Text.of "-") t else some t

/-! ### Dates -/

/-- The length of the date at the front.  Where a hyphen behind a week could begin
    a weekday or a time, two digits tell that it is a time; without hyphens, the
    digits behind a week are a weekday if the rest of them are pairs. -/
def dateLength (t : Text) : Nat :=
  if t.length = 7 then 7
  else if isAt t 4 '-' then
    if !isAt t 5 'W' || (isAt t 8 '-' && !isDigitAt t 10) then 10 else 8
  else if isAt t 4 'W' then
    let digits := ((t.drop 7).takeWhile CodePoint.isAsciiDigit).length
    if digits < 2 then 7 + digits else if digits % 2 = 0 then 8 else 7
  else 8

/-- Reads a week and a weekday, Monday if none is given. -/
def weekDate? (year : Nat) (isExtended : Bool) (t : Text) : Option (Nat × Nat × Nat) := do
  let (week, rest) ← takeNumber? 2 t
  if rest.isEmpty then Calendar.dateOfWeek? year week 1
  else
    let (weekday, rest) ← takeNumber? 1 (← dropHyphen? isExtended rest)
    if rest.isEmpty then Calendar.dateOfWeek? year week weekday else none

def monthDate? (year : Nat) (isExtended : Bool) (t : Text) : Option (Nat × Nat × Nat) := do
  let (month, rest) ← takeNumber? 2 t
  let (day, rest) ← takeNumber? 2 (← dropHyphen? isExtended rest)
  if rest.isEmpty then some (year, month, day) else none

def date? (t : Text) : Option (Nat × Nat × Nat) := do
  let (year, rest) ← takeNumber? 4 t
  let isExtended := isAt rest 0 '-'
  let rest ← dropHyphen? isExtended rest
  match Text.dropFront? (Text.of "W") rest with
  | some rest => weekDate? year isExtended rest
  | none => monthDate? year isExtended rest

/-! ### Times -/

structure Clock where
  hour : Nat
  minute : Nat
  second : Nat
  microsecond : Nat
deriving DecidableEq, Repr

/-- Reads a fraction of a second, whose digits beyond the sixth are passed over. -/
def fraction? (t : Text) : Option (Nat × Text) :=
  let six := t.take 6
  (Text.decimal? (six ++ List.replicate (6 - six.length) (.ofChar '0'))).map
    (·, (t.drop 6).dropWhile CodePoint.isAsciiDigit)

/-- Whether a code point is a single octet in UTF-8. -/
def isOctet (c : CodePoint) : Bool := c.val < 0x80

/-- Reads up to a number of pairs of digits, then a fraction: the numbers, the
    microseconds and the text that is left. -/
def pairs? (isExtended : Bool) : Nat → Text → Option (List Nat × Nat × Text)
  | 0, t => (fraction? t).map fun (microsecond, rest) => ([], microsecond, rest)
  | left + 1, t =>
    (takeNumber? 2 t).bind fun (n, rest) =>
      match rest with
      | c :: d :: more =>
        if isExtended && c = .ofChar ':' then (pairs? isExtended left (d :: more)).map fun r => (n :: r.1, r.2)
        else if c = .ofChar '.' || c = .ofChar ',' then
          (fraction? (d :: more)).map fun r => ([n], r.1, r.2)
        else if isExtended then none
        else (pairs? isExtended left rest).map fun r => (n :: r.1, r.2)
      | _ => if rest.all isOctet then some ([n], 0, rest) else none

def clock? (t : Text) : Option (Clock × Text) :=
  (pairs? (isAt t 2 ':') 3 t).map fun (numbers, microsecond, rest) =>
    (⟨numbers[0]?.getD 0, numbers[1]?.getD 0, numbers[2]?.getD 0, microsecond⟩, rest)

def isEnd (rest : Text) : Bool := rest.isEmpty || isAt rest 0 '\x00'

/-- The offset of some time east or west, in microseconds.  Less than a second is
    as good as nothing. -/
def offsetOf (isWest : Bool) (c : Clock) : Int :=
  let seconds := (c.hour * 60 + c.minute) * 60 + c.second
  let size : Int := if seconds = 0 then 0 else (seconds * perSecond + c.microsecond : Nat)
  if isWest then -size else size

/-- Reads what stands behind a time: nothing, `Z`, or a sign and an offset. -/
def offsetBehind? (t : Text) : Option (Option Int) :=
  match t with
  | [] => some none
  | mark :: rest =>
    if mark = .ofChar 'Z' then if isEnd rest then some (some 0) else none
    else (clock? rest).bind fun (c, rest) =>
      if isEnd rest then some (some (offsetOf (mark = .ofChar '-') c)) else none

def beginsOffset (c : CodePoint) : Bool := c = .ofChar '+' || c = .ofChar '-' || c = .ofChar 'Z'

def timeOfDay? (t : Text) : Option (Clock × Option Int) := do
  let tail := t.dropWhile (!beginsOffset ·)
  let (c, rest) ← clock? (t.takeWhile (!beginsOffset ·))
  if tail.isEmpty && !isEnd rest then none else some (c, ← offsetBehind? tail)

/-! ### Whole timestamps -/

/-- A text without surrogates.  One of them may stand where a date can end, for the
    code point between date and time. -/
def withoutSurrogate? (t : Text) : Option Text :=
  let t :=
    match [7, 8, 10].find? fun i => t[i]?.any CodePoint.isSurrogate with
    | some i => t.set i (.ofChar 'T')
    | none => t
  if t.any CodePoint.isSurrogate then none else some t

/-- Reads a timestamp without looking at the ranges of its fields. -/
def fields? (t : Text) : Option Timestamp := do
  let (year, month, day) ← date? (t.take (dateLength t))
  match t.drop (dateLength t) with
  | [] => some ⟨year, month, day, 0, 0, 0, 0, none⟩
  | _ :: rest => do
    let (c, offset?) ← timeOfDay? rest
    some ⟨year, month, day, c.hour, c.minute, c.second, c.microsecond, offset?⟩

def parse (t : Text) : Except ValueFault Timestamp :=
  match ((withoutSurrogate? t).bind fields?).filter isValid with
  | some stamp => .ok stamp
  | none => .error .malformedTime

end UploadGate.Timestamp
