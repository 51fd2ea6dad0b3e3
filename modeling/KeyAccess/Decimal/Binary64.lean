-- The binary64 number format. A number is its 64 bits: a sign, an exponent field of 11 bits and
-- a fraction of 52. Every ratio of natural numbers has one nearest number; of two equally near
-- ones it is the one with the even significand, and past the largest finite number it is infinite.

namespace KeyAccess.Decimal

/-- A power of two. -/
def powerOfTwo (n : Nat) : Nat := Nat.pow 2 n

/-- A power of ten. -/
def powerOfTen (n : Nat) : Nat := Nat.pow 10 n

/-- A number of the binary64 format. -/
structure Binary64 where
  bits : UInt64
  deriving DecidableEq

namespace Binary64

/-! ## Fields -/

/-- Whether the sign bit is set. -/
def isNegative (x : Binary64) : Bool := 0x8000000000000000 ≤ x.bits.toNat

/-- The 11 bits of the exponent. -/
def exponentField (x : Binary64) : Nat := x.bits.toNat / 0x10000000000000 % 0x800

/-- The 52 bits of the fraction. -/
def fraction (x : Binary64) : Nat := x.bits.toNat % 0x10000000000000

/-- Neither infinite nor NaN. -/
def isFinite (x : Binary64) : Bool := x.exponentField != 2047

/-- Not a number: the exponent of an infinity with a fraction. -/
def isNaN (x : Binary64) : Bool := x.exponentField == 2047 && x.fraction != 0

/-- Positive or negative zero. -/
def isZero (x : Binary64) : Bool := x.exponentField == 0 && x.fraction == 0

/-- A finite number is, up to its sign, `significand * 2 ^ exponent`. -/
def significand (x : Binary64) : Nat :=
  if x.exponentField = 0 then x.fraction else 0x10000000000000 + x.fraction

/-- The power of two that the significand counts. -/
def exponent (x : Binary64) : Int :=
  if x.exponentField = 0 then -1074 else (x.exponentField : Int) - 1075

/-- The number with a sign and the other 63 bits. -/
def ofMagnitude (negative : Bool) (magnitude : Nat) : Binary64 :=
  ⟨UInt64.ofNat (if negative then 0x8000000000000000 + magnitude else magnitude)⟩

/-- A signed zero. -/
def zero (negative : Bool) : Binary64 := ofMagnitude negative 0

/-- A signed infinity. -/
def infinity (negative : Bool) : Binary64 := ofMagnitude negative 0x7FF0000000000000

/-- The number that is none. -/
def nan : Binary64 := ofMagnitude false 0x7FF8000000000000

/-- The number with the other sign. -/
def negate (x : Binary64) : Binary64 :=
  ofMagnitude (!x.isNegative) (x.bits.toNat % 0x8000000000000000)

/-! ## Rounding -/

/-- The integer nearest to a ratio, and of two the even one. -/
def roundHalfEven (num den : Nat) : Nat :=
  let k := num / den
  let r := num % den
  if 2 * r < den then k
  else if den < 2 * r then k + 1
  else if k % 2 = 0 then k else k + 1

/-- The ratio `num / den` divided by a power of two, as a ratio. -/
def scaleDown (num den : Nat) (power : Int) : Nat × Nat :=
  if 0 ≤ power then (num, den * powerOfTwo power.toNat)
  else (num * powerOfTwo (-power).toNat, den)

/-- The greatest `e` such that a positive ratio is at least `2 ^ e`. -/
def log2Ratio (num den : Nat) : Int :=
  let guess := (num.log2 : Int) - den.log2
  let (n, d) := scaleDown num den guess
  if d ≤ n then guess else guess - 1

/-- The number nearest to a ratio, with a sign of its own. The exponent and the significand
share one count of steps: a significand that rounds up to the next power of two carries into
the exponent. -/
def ofRatio (negative : Bool) (num den : Nat) : Binary64 :=
  if num = 0 then zero negative
  else
    let q := max (log2Ratio num den - 52) (-1074)
    let (n, d) := scaleDown num den q
    let magnitude := (q + 1074).toNat * 0x10000000000000 + roundHalfEven n d
    if 0x7FF0000000000000 ≤ magnitude then infinity negative
    else ofMagnitude negative magnitude

/-- The number nearest to `coefficient * 10 ^ power`. A power of ten is beyond the power of eight
with the same exponent; where that alone puts the value far out of the format's range, the power is
not written out. -/
def ofDecimal (negative : Bool) (coefficient : Nat) (power : Int) : Binary64 :=
  if coefficient = 0 then zero negative
  else
    let size := (coefficient.log2 : Int) + 3 * power
    if 0 ≤ power then
      if 1100 < size then infinity negative
      else ofRatio negative (coefficient * powerOfTen power.toNat) 1
    else
      if size < -1100 then zero negative
      else ofRatio negative coefficient (powerOfTen (-power).toNat)

/-! ## Arithmetic on finite numbers -/

/-- A finite number without its sign, as a ratio. -/
def ratio (x : Binary64) : Nat × Nat := scaleDown x.significand 1 (-x.exponent)

/-- The product of two finite numbers, rounded. -/
def mul (x y : Binary64) : Binary64 :=
  let (n, d) := x.ratio
  let (m, e) := y.ratio
  ofRatio (x.isNegative != y.isNegative) (n * m) (d * e)

/-- The quotient of two finite numbers, the second not zero, rounded. -/
def div (x y : Binary64) : Binary64 :=
  let (n, d) := x.ratio
  let (m, e) := y.ratio
  ofRatio (x.isNegative != y.isNegative) (n * e) (d * m)

end Binary64

end KeyAccess.Decimal
