-- Plain numerals: digits, a point only before a fraction, a minus sign before negative numbers,
-- and never an exponent.
import KeyAccess.Decimal.Shortest

namespace KeyAccess.Decimal

/-- The decimal digits of a natural number. -/
def natDigits (n : Nat) : List Char := Nat.toDigits 10 n

/-- Digits with the point after the first `point` of them; zeros fill the gap between the point
and the digits on either side. -/
def layOut (digits : List Char) (point : Int) : List Char :=
  if point ≤ 0 then ['0', '.'] ++ List.replicate (-point).toNat '0' ++ digits
  else if (digits.length : Int) ≤ point then
    digits ++ List.replicate (point.toNat - digits.length) '0'
  else digits.take point.toNat ++ '.' :: digits.drop point.toNat

/-- The plain numeral of a decimal. -/
def Scaled.plain (d : Scaled) : List Char :=
  if d.coefficient = 0 then ['0']
  else
    let digits := natDigits d.coefficient
    layOut digits (digits.length + d.power)

/-- A minus sign before the text of a negative number. -/
def signed (negative : Bool) (text : List Char) : List Char :=
  if negative then '-' :: text else text

/-- The plain numeral of an integer. -/
def intNumeral (i : Int) : List Char := signed (i < 0) (natDigits i.natAbs)

/-- The text of a binary64 number: the plain numeral of its shortest decimal, the greater one in
magnitude on a tie, or a word for a number that is not finite. -/
def Binary64.text (x : Binary64) : String :=
  String.ofList <|
    if x.isNaN then ['N', 'a', 'N']
    else if x.isFinite then signed x.isNegative (x.shortest .upward).plain
    else signed x.isNegative ['i', 'n', 'f']

/-- The text of an integer. -/
def intText (i : Int) : String := String.ofList (intNumeral i)

end KeyAccess.Decimal
