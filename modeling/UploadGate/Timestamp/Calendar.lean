/-
  UploadGate/Timestamp/Calendar.lean
  ==================================
  **The calendar: lengths of months, weekdays, and weeks of the year.**

  The rules of leap years hold for all years.  Weeks begin on Monday, and the
  first week of a year is the one with its first Thursday, so that days at
  either end of a year may belong to a week of the year beside it.
-/

namespace UploadGate.Calendar

/-! ### Months -/

def isLeap (year : Nat) : Bool := year % 4 == 0 && (year % 100 != 0 || year % 400 == 0)

def daysIn (year month : Nat) : Nat :=
  match month with
  | 2 => if isLeap year then 29 else 28
  | 4 | 6 | 9 | 11 => 30
  | _ => 31

def daysOf (year : Nat) : Nat := if isLeap year then 366 else 365

/-- The month and day of a day that is counted from zero at the first of some
    months, given by their numbers. -/
def monthAndDay (year : Nat) : List Nat → Nat → Option (Nat × Nat)
  | [], _ => none
  | month :: months, index =>
    if index < daysIn year month then some (month, index + 1)
    else monthAndDay year months (index - daysIn year month)

/-- The date of a day that is counted from zero at the first of January. -/
def dateOf? (year index : Nat) : Option (Nat × Nat × Nat) :=
  (monthAndDay year [1, 2, 3, 4, 5, 6, 7, 8, 9, 10, 11, 12] index).map (year, ·)

/-! ### Weeks -/

/-- The weekday of the first of January, zero for Monday.  The year 1 began on a
    Monday. -/
def firstWeekday (year : Nat) : Nat :=
  let before := year - 1
  (365 * before + before / 4 - before / 100 + before / 400) % 7

/-- Whether a year has 53 weeks: it has 53 Thursdays. -/
def hasLongCount (year : Nat) : Bool := firstWeekday year = 3 || (firstWeekday year = 2 && isLeap year)

def weeksOf (year : Nat) : Nat := if hasLongCount year then 53 else 52

/-- The first Monday of the weeks of a year, counted in days from the first of
    January. -/
def firstMonday (year : Nat) : Int :=
  let weekday : Int := firstWeekday year
  if weekday ≤ 3 then -weekday else 7 - weekday

/-- The date of a weekday, one for Monday, in a week of a year. -/
def dateOfWeek? (year week weekday : Nat) : Option (Nat × Nat × Nat) :=
  if year = 0 || week = 0 || weeksOf year < week || weekday = 0 || 7 < weekday then none
  else
    let index := firstMonday year + ((week - 1) * 7 + (weekday - 1) : Nat)
    if index < 0 then dateOf? (year - 1) (daysOf (year - 1) + index).toNat
    else if index < daysOf year then dateOf? year index.toNat
    else dateOf? (year + 1) (index - daysOf year).toNat

end UploadGate.Calendar
