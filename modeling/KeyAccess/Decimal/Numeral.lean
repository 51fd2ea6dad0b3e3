-- Reading numerals. An integer is an optional sign and decimal digits. A binary64 number may
-- also have a point among or beside its digits and a power of ten after them, or be one of the
-- words for infinity and NaN in any letter case.
import KeyAccess.Decimal.Binary64

namespace KeyAccess.Decimal

/-- The value of a decimal digit. -/
def digitValue (c : Char) : Nat := c.toNat - '0'.toNat

/-- The value of decimal digits, the first one the most significant. -/
def digitsValue (digits : List Char) : Nat :=
  digits.foldl (fun n c => 10 * n + digitValue c) 0

/-- A leading sign, true for minus, and the text after it. -/
def takeSign : List Char → Bool × List Char
  | '-' :: rest => (true, rest)
  | '+' :: rest => (false, rest)
  | text => (false, text)

/-- The integer that a text of digits after an optional sign denotes. -/
def readInt? (text : List Char) : Option Int :=
  let (negative, digits) := takeSign text
  if digits.isEmpty || !digits.all Char.isDigit then none
  else if negative then some (-(digitsValue digits : Int)) else some (digitsValue digits)

/-- The 64-bit integer that a text denotes, if it is in range. -/
def readInt64? (text : List Char) : Option Int64 :=
  match readInt? text with
  | some i =>
    if -0x8000000000000000 ≤ i ∧ i < 0x8000000000000000 then some (Int64.ofInt i) else none
  | none => none

/-- The power of ten that the text after the digits states. -/
def readPower? : List Char → Option Int
  | [] => some 0
  | c :: rest => if c = 'e' ∨ c = 'E' then readInt? rest else none

/-- The number without a sign that digits, a point and a power of ten denote. -/
def readDecimal? (negative : Bool) (text : List Char) : Option Binary64 :=
  let whole := text.takeWhile Char.isDigit
  let afterWhole := text.dropWhile Char.isDigit
  let (fraction, rest) := match afterWhole with
    | '.' :: tail => (tail.takeWhile Char.isDigit, tail.dropWhile Char.isDigit)
    | _ => ([], afterWhole)
  let digits := whole ++ fraction
  if digits.isEmpty then none
  else match readPower? rest with
    | some power =>
      some (Binary64.ofDecimal negative (digitsValue digits) (power - fraction.length))
    | none => none

/-- The number that is not finite and that a word stands for. -/
def readWord? (negative : Bool) (text : List Char) : Option Binary64 :=
  let word := String.ofList (text.map Char.toLower)
  if word = "inf" ∨ word = "infinity" then some (Binary64.infinity negative)
  else if word = "nan" then some Binary64.nan
  else none

/-- The binary64 number nearest to what a text denotes. -/
def readBinary64? (text : List Char) : Option Binary64 :=
  let (negative, rest) := takeSign text
  match readDecimal? negative rest with
  | some x => some x
  | none => readWord? negative rest

end KeyAccess.Decimal
