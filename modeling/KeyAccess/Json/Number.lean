-- What a JSON number denotes. An integer stays one if it fits into 64 bits with or without a sign;
-- every other number is a binary64 number: its leading digits, as many as fit into 64 bits, are
-- scaled by a power of ten, and each step is rounded.
import KeyAccess.Json.Token
import KeyAccess.Decimal.Plain
import KeyAccess.Decimal.Numeral

namespace KeyAccess.Json

open KeyAccess.Decimal

/-- The value of a number. -/
inductive Number
  | integer (value : Int)
  | float (value : Binary64)
  deriving DecidableEq

/-- Appends digits to a coefficient while it stays below `2 ^ 64`; the digits that are left. -/
def appendDigits (coefficient : Nat) : List Char → Nat × List Char
  | [] => (coefficient, [])
  | c :: rest =>
    let next := coefficient * 10 + digitValue c
    if next < 0x10000000000000000 then appendDigits next rest else (coefficient, c :: rest)

/-- A power of ten up to the greatest finite one. -/
def tenTo (power : Nat) : Binary64 := Binary64.ofRatio false (powerOfTen power) 1

/-- Scales a number by a power of ten, by at most `10 ^ 308` a step; none if it gets too large. -/
def scaleByTen : Nat → Binary64 → Int → Option Binary64
  | 0, x, _ => some x
  | steps + 1, x, power =>
    if power.natAbs ≤ 308 then
      if 0 ≤ power then
        let y := x.mul (tenTo power.natAbs)
        if y.isFinite then some y else none
      else some (x.div (tenTo power.natAbs))
    else if x.isZero then some x
    else if 0 ≤ power then none
    else scaleByTen steps (x.div (tenTo 308)) (power + 308)

/-- The coefficient and the power of ten of a number that is no plain integer. -/
def NumberText.parts (n : NumberText) : Nat × Int :=
  let (whole, dropped) := appendDigits 0 n.whole
  let (coefficient, unread) := appendDigits whole n.fraction
  let written : Int := match n.power with
    | some (true, digits) => -(digitsValue digits : Int)
    | some (false, digits) => digitsValue digits
    | none => 0
  (coefficient, (dropped.length : Int) - (n.fraction.length - unread.length : Nat) + written)

/-- The binary64 number that a number denotes; none if it is too large. -/
def NumberText.float? (n : NumberText) : Option Binary64 :=
  let (coefficient, power) := n.parts
  (scaleByTen 8 (Binary64.ofRatio false coefficient 1) power).map fun x =>
    if n.negative then x.negate else x

/-- What a number denotes; none if it is too large. The integer zero with a minus sign, and an
integer below `-2 ^ 63`, count as binary64 numbers. -/
def NumberText.value? (n : NumberText) : Option Number :=
  let (whole, dropped) := appendDigits 0 n.whole
  if n.fraction.isEmpty && n.power.isNone && dropped.isEmpty then
    if !n.negative then some (.integer whole)
    else if 0 < whole ∧ whole ≤ 0x8000000000000000 then some (.integer (-whole))
    else some (.float (Binary64.ofRatio true whole 1))
  else n.float?.map .float

/-- A power of ten with its sign, which is always written. -/
def exponentText (power : Int) : List Char :=
  'e' :: (if power < 0 then '-' else '+') :: natDigits power.natAbs

/-- A finite binary64 number with its digits laid out: with a point where the point falls among or
near the digits, else with a power of ten. On a tie the decimal is the one that ends in an even
digit. -/
def scientific (x : Binary64) : List Char :=
  let d := x.shortest .toEven
  if d.coefficient = 0 then signed x.isNegative ['0', '.', '0']
  else
    let digits := natDigits d.coefficient
    let point := (digits.length : Int) + d.power
    signed x.isNegative <|
      if 0 ≤ d.power ∧ point ≤ 16 then layOut digits point ++ ['.', '0']
      else if -5 < point ∧ point ≤ 16 then layOut digits point
      else
        let power := exponentText (point - 1)
        match digits with
        | [] => power
        | [c] => c :: power
        | c :: rest => c :: '.' :: rest ++ power

end KeyAccess.Json
