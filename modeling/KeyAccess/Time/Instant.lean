-- Instants in UTC and their one written form: date and time of day to the millisecond, with a
-- fixed width in the years 0 to 9999.
import KeyAccess.Time.Civil
import KeyAccess.Decimal.Plain

namespace KeyAccess.Time

/-- A point in time: whole seconds since the start of 1970 and the nanoseconds after them. A leap
second prolongs the second before it, so its nanoseconds start at 10 ^ 9. -/
structure Instant where
  seconds : Int
  nanos : Nat
  deriving DecidableEq

namespace Instant

/-- The milliseconds since the start of 1970. -/
def millis (t : Instant) : Int := t.seconds * 1000 + (t.nanos / 1000000 : Nat)

/-- The date of an instant. -/
def date (t : Instant) : Date := Date.ofDay (t.seconds / 86400 + epochDay)

/-- The seconds since midnight, a leap second not counted. -/
def secondOfDay (t : Instant) : Nat := (t.seconds % 86400).toNat

/-- The second within its minute; a leap second has the number 60. -/
def second (t : Instant) : Nat :=
  t.secondOfDay % 60 + if 1000000000 ≤ t.nanos then 1 else 0

/-- The millisecond within its second. -/
def millisecond (t : Instant) : Nat := t.nanos % 1000000000 / 1000000

end Instant

/-- The last `width` decimal digits of a number. -/
def padded : Nat → Nat → List Char
  | 0, _ => []
  | width + 1, n => padded width (n / 10) ++ [Nat.digitChar (n % 10)]

/-- A year: four digits from 0 to 9999, else a sign and at least four digits. -/
def yearText (year : Int) : List Char :=
  if 0 ≤ year ∧ year ≤ 9999 then padded 4 year.toNat
  else
    let digits := Decimal.natDigits year.natAbs
    (if year < 0 then '-' else '+') :: List.replicate (4 - digits.length) '0' ++ digits

namespace Instant

/-- The written form of an instant, as characters. -/
def chars (t : Instant) : List Char :=
  let d := t.date
  yearText d.year ++ '-' :: padded 2 d.month ++ '-' :: padded 2 d.day ++
    'T' :: padded 2 (t.secondOfDay / 3600) ++ ':' :: padded 2 (t.secondOfDay / 60 % 60) ++
    ':' :: padded 2 t.second ++ '.' :: padded 3 t.millisecond ++ ['Z']

/-- The written form of an instant. -/
def text (t : Instant) : String := String.ofList t.chars

end Instant

end KeyAccess.Time
