-- Reading timestamps: a date and a time of day with a numeric offset from UTC or the letter Z.
-- The text is read from left to right and the first fault decides the error.
import KeyAccess.Time.Instant
import KeyAccess.Decimal.Numeral

namespace KeyAccess.Time

/-- Why a text is no timestamp. -/
inductive TimestampError
  | premature
  | invalid
  | outOfRange
  | trailing
  deriving DecidableEq

/-- The wording of the error. -/
def TimestampError.message : TimestampError → String
  | premature => "premature end of input"
  | invalid => "input contains invalid characters"
  | outOfRange => "input is out of range"
  | trailing => "trailing input"

namespace Timestamp

/-- How many bytes a text takes. -/
def byteCount (text : List Char) : Nat := text.foldr (fun c n => c.utf8Size + n) 0

/-- Reads exactly `width` digits. -/
def takeDigits (width : Nat) (text : List Char) : Except TimestampError (Nat × List Char) :=
  if width ≤ text.length ∧ (text.take width).all Char.isDigit then
    .ok (Decimal.digitsValue (text.take width), text.drop width)
  else .error .invalid

/-- Reads one of some characters. -/
def takeOneOf (allowed : List Char) : List Char → Except TimestampError (List Char)
  | [] => .error .premature
  | c :: rest => if c ∈ allowed then .ok rest else .error .invalid

/-- Two digits of an offset. They are missing if fewer than two bytes are left. -/
def takeOffsetDigits (text : List Char) : Except TimestampError (Nat × List Char) :=
  match text with
  | [] => .error .premature
  | [c] => if c.utf8Size < 2 then .error .premature else .error .invalid
  | c :: d :: rest =>
    if c.isDigit ∧ d.isDigit then .ok (Decimal.digitsValue [c, d], rest) else .error .invalid

/-- The nanoseconds that up to nine digits of a fraction denote. -/
def nanosOfDigits (digits : List Char) : Nat :=
  let kept := digits.take 9
  Decimal.digitsValue kept * Decimal.powerOfTen (9 - kept.length)

/-- Reads the fraction of a second, if a point announces one. -/
def takeFraction : List Char → Except TimestampError (Nat × List Char)
  | '.' :: rest =>
    match rest with
    | [] => .error .premature
    | c :: _ =>
      if c.isDigit then
        .ok (nanosOfDigits (rest.takeWhile Char.isDigit), rest.dropWhile Char.isDigit)
      else .error .invalid
  | text => .ok (0, text)

/-- Reads the offset from UTC, in minutes to the east. -/
def takeOffset : List Char → Except TimestampError (Int × List Char)
  | [] => .error .premature
  | c :: rest =>
    if c = 'Z' ∨ c = 'z' then .ok (0, rest)
    else if c = '+' ∨ c = '-' ∨ c = '\u2212' then do
      let (hours, rest) ← takeOffsetDigits rest
      let rest ← takeOneOf [':'] rest
      let (minutes, rest) ← takeOffsetDigits rest
      if 60 ≤ minutes then throw .outOfRange
      let east : Int := hours * 60 + minutes
      return (if c = '+' then east else -east, rest)
    else .error .invalid

/-- The instant of a local date and time of day. The second 60 is a leap second. -/
def instantOf (date : Date) (hour minute second nanos : Nat) (offset : Int) : Instant :=
  let leap := second = 60
  let seconds := ((date.toDay - epochDay) * 86400 : Int) + hour * 3600 + minute * 60 +
    (if leap then 59 else second : Nat)
  ⟨seconds - offset * 60, if leap then 1000000000 + nanos else nanos⟩

/-- Reads a timestamp that takes the whole text. -/
def readChars (text : List Char) : Except TimestampError Instant := do
  if byteCount text < 19 then throw .premature
  let (year, text) ← takeDigits 4 text
  let text ← takeOneOf ['-'] text
  let (month, text) ← takeDigits 2 text
  let text ← takeOneOf ['-'] text
  let (day, text) ← takeDigits 2 text
  let date : Date := ⟨year, month, day⟩
  if !date.exists? then throw .outOfRange
  let text ← takeOneOf ['T', 't', ' '] text
  let (hour, text) ← takeDigits 2 text
  let text ← takeOneOf [':'] text
  let (minute, text) ← takeDigits 2 text
  let text ← takeOneOf [':'] text
  let (second, text) ← takeDigits 2 text
  let (nanos, text) ← takeFraction text
  if 24 ≤ hour ∨ 60 ≤ minute ∨ 60 < second then throw .outOfRange
  let (offset, text) ← takeOffset text
  if !text.isEmpty then throw .trailing
  if 24 * 60 ≤ offset.natAbs then throw .outOfRange
  return instantOf date hour minute second nanos offset

/-- Reads a timestamp that takes the whole text. -/
def read (text : String) : Except TimestampError Instant := readChars text.toList

end Timestamp

end KeyAccess.Time
