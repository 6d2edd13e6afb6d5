/-!
# StaticSite.Time.Calendar

The Gregorian calendar, extended to all years, and points in time.

A point in time is a number of seconds since the start of 1970 and of nanoseconds within the
second. A leap second is the second before it with a thousand million nanoseconds more.
-/

set_option autoImplicit false

namespace StaticSite

/-- A point in time. -/
structure Instant where
  seconds : Int
  nanos : Nat
deriving DecidableEq, Inhabited, Repr

namespace Instant

/-- Whether one point in time comes before another. -/
def isBefore (a b : Instant) : Bool :=
  a.seconds < b.seconds || (a.seconds == b.seconds && a.nanos < b.nanos)

end Instant

namespace Calendar

/-- Whether a year has a 29th of February. -/
def isLeapYear (year : Int) : Bool := year % 4 == 0 && (year % 100 != 0 || year % 400 == 0)

/-- The number of days of a month. -/
def daysInMonth (year : Int) (month : Nat) : Nat :=
  if month = 2 then (if isLeapYear year then 29 else 28)
  else if month = 4 ∨ month = 6 ∨ month = 9 ∨ month = 11 then 30
  else 31

/-- Days from the first of March of year 0 to the first of March of `year`. -/
def daysToMarch (year : Int) : Int := 365 * year + year / 4 - year / 100 + year / 400

/-- Days from the start of 1970 to a day. Years are taken to start in March, so that the day that
leap years have is the last one. -/
def dayNumber (year : Int) (month day : Nat) : Int :=
  let shifted : Int := if month ≤ 2 then year - 1 else year
  let fromMarch := (month + 9) % 12
  daysToMarch shifted + ((153 * fromMarch + 2) / 5 : Nat) + (day : Int) - 1 - 719468

/-- The year, the month and the day with a number. -/
def ofDayNumber (number : Int) : Int × Nat × Nat :=
  let z := number + 719468
  let era := z / 146097
  let dayOfEra := (z % 146097).toNat
  let yearOfEra := (dayOfEra - dayOfEra / 1460 + dayOfEra / 36524 - dayOfEra / 146096) / 365
  let dayOfYear := dayOfEra - (365 * yearOfEra + yearOfEra / 4 - yearOfEra / 100)
  let fromMarch := (5 * dayOfYear + 2) / 153
  let day := dayOfYear - (153 * fromMarch + 2) / 5 + 1
  let month := if fromMarch < 10 then fromMarch + 3 else fromMarch - 9
  let year := (yearOfEra : Int) + era * 400
  (if month ≤ 2 then year + 1 else year, month, day)

/-- A number in decimal, with zeros in front up to `width` digits. -/
def padded (width n : Nat) : List Char :=
  let digits := Nat.toDigits 10 n
  List.replicate (width - digits.length) '0' ++ digits

end Calendar

open Calendar in
/-- The point in time in words of numbers, to the millisecond: `YYYY-MM-DDTHH:MM:SS.mmmZ`. Years are
natural numbers of four digits. -/
def Instant.text (t : Instant) : List Char :=
  let (year, month, day) := ofDayNumber (t.seconds / 86400)
  let second := (t.seconds % 86400).toNat
  padded 4 year.toNat ++ '-' :: padded 2 month ++ '-' :: padded 2 day ++ 'T' ::
    padded 2 (second / 3600) ++ ':' :: padded 2 (second / 60 % 60) ++ ':' ::
    padded 2 (second % 60) ++ '.' :: padded 3 (t.nanos / 1000000) ++ ['Z']

end StaticSite
