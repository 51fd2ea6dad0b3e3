-- The calendar: dates of the Gregorian calendar, carried on in both directions without end, and
-- the count of days since the first day of the year 0. A day has one date, and a date that exists
-- is the date of one day.

namespace KeyAccess.Time

/-- A date: its year, its month from 1 to 12 and its day from 1 on. -/
structure Date where
  year : Int
  month : Nat
  day : Nat
  deriving DecidableEq

/-- Whether a year has 366 days. -/
def isLeapYear (year : Int) : Bool := year % 4 == 0 && (year % 100 != 0 || year % 400 == 0)

/-- The lengths of the months of a year. -/
def monthLengths (year : Int) : List Nat :=
  [31, if isLeapYear year then 29 else 28, 31, 30, 31, 30, 31, 31, 30, 31, 30, 31]

/-- The days from the first day of the year 0 to the first day of a year. -/
def daysBeforeYear (year : Int) : Int :=
  365 * year + (year + 3) / 4 - (year + 99) / 100 + (year + 399) / 400

/-- The year of a day: the mean length of a year leads to it or to a neighbour. -/
def yearOfDay (day : Int) : Int :=
  let guess := 400 * day / 146097
  if day < daysBeforeYear guess then guess - 1
  else if daysBeforeYear (guess + 1) ≤ day then guess + 1
  else guess

/-- The month, counted on from `month`, and the day of the month of the day `offset` days on. -/
def monthOfOffset (month : Nat) : List Nat → Nat → Nat × Nat
  | [], offset => (month, offset + 1)
  | length :: rest, offset =>
    if offset < length then (month, offset + 1)
    else monthOfOffset (month + 1) rest (offset - length)

/-- The date of a day. -/
def Date.ofDay (day : Int) : Date :=
  let year := yearOfDay day
  let (month, dayOfMonth) := monthOfOffset 1 (monthLengths year) (day - daysBeforeYear year).toNat
  ⟨year, month, dayOfMonth⟩

/-- Whether the calendar has the date. -/
def Date.exists? (d : Date) : Bool :=
  match d.month with
  | 0 => false
  | m + 1 => match (monthLengths d.year)[m]? with
    | some length => 1 ≤ d.day && d.day ≤ length
    | none => false

/-- The length of some months together. -/
def totalLength (lengths : List Nat) : Nat := lengths.foldr (· + ·) 0

/-- The day of a date. -/
def Date.toDay (d : Date) : Int :=
  daysBeforeYear d.year + totalLength ((monthLengths d.year).take (d.month - 1)) + (d.day - 1 : Nat)

/-- The first day of the year 1970. -/
def epochDay : Int := 719528

end KeyAccess.Time
