-- The shortest decimal of a finite binary64 number: the one with the fewest digits among the
-- decimals that round to the number, and of those the nearest one. Which of two equally near ones
-- it is depends on what the text is for.
import KeyAccess.Decimal.Binary64

namespace KeyAccess.Decimal

/-- The decimal `coefficient * 10 ^ power`, which has no sign. -/
structure Scaled where
  coefficient : Nat
  power : Int
  deriving DecidableEq

/-- Which of two equally near neighbours a number goes to. -/
inductive Tie
  | upward
  | toEven
  deriving DecidableEq

/-- The neighbour that the tie picks, of a coefficient and the next one. -/
def Tie.pick (tie : Tie) (lower : Nat) : Nat :=
  match tie with
  | .upward => lower + 1
  | .toEven => if lower % 2 = 0 then lower else lower + 1

/-- Takes the zeros off the end of a coefficient of at most `fuel` digits. -/
def Scaled.dropZeros : Nat → Scaled → Scaled
  | 0, d => d
  | fuel + 1, d =>
    if d.coefficient % 10 = 0 then dropZeros fuel ⟨d.coefficient / 10, d.power + 1⟩ else d

namespace Binary64

/-- Four times the significand of a positive number and the two ends of the interval of ratios
that round to the number, in quarters of the last place. Below a power of two the numbers lie
twice as close, so there the lower end is nearer. -/
structure Interval where
  low : Nat
  mid : Nat
  high : Nat
  /-- Whether the ends themselves round to the number. -/
  closed : Bool
  /-- The power of two that a quarter of the last place is. -/
  power : Int

/-- The interval of a positive finite number. -/
def interval (x : Binary64) : Interval :=
  let m := x.significand
  let below := if x.fraction = 0 ∧ 1 < x.exponentField then 1 else 2
  ⟨4 * m - below, 4 * m, 4 * m + 2, m % 2 == 0, x.exponent - 2⟩

/-- A decimal and a count of quarters of the last place, both over one denominator. -/
def commonTerms (i : Interval) (power : Int) (coefficient quarters : Nat) : Nat × Nat :=
  let c := if 0 ≤ power then coefficient * powerOfTen power.toNat else coefficient
  let q := if 0 ≤ power then quarters else quarters * powerOfTen (-power).toNat
  if 0 ≤ i.power then (c, q * powerOfTwo i.power.toNat)
  else (c * powerOfTwo (-i.power).toNat, q)

/-- Whether a decimal rounds to the number of the interval. -/
def Interval.holds (i : Interval) (power : Int) (coefficient : Nat) : Bool :=
  let (c, low) := commonTerms i power coefficient i.low
  let (c', high) := commonTerms i power coefficient i.high
  if i.closed then low ≤ c && c' ≤ high else low < c && c' < high

/-- The decimal at most and the decimal more than the number, on the grid of one power of ten:
the one that rounds to the number, or the nearer one if both do. -/
def Interval.onGrid (i : Interval) (tie : Tie) (power : Int) : Option Scaled :=
  let (unit, value) := commonTerms i power 1 i.mid
  let lower := value / unit
  match i.holds power lower, i.holds power (lower + 1) with
  | true, true =>
    if 2 * (value % unit) < unit then some ⟨lower, power⟩
    else if 2 * (value % unit) = unit then some ⟨tie.pick lower, power⟩
    else some ⟨lower + 1, power⟩
  | true, false => some ⟨lower, power⟩
  | false, true => some ⟨lower + 1, power⟩
  | false, false => none

/-- The greatest `e`, from `start` up to `start + steps`, such that the number is at least
`10 ^ e`. -/
def Interval.log10 (i : Interval) (start : Int) : Nat → Int
  | 0 => start
  | steps + 1 =>
    let (unit, value) := commonTerms i (start + (steps + 1 : Nat)) 1 i.mid
    if unit ≤ value then start + (steps + 1 : Nat) else i.log10 start steps

/-- The first hit on the grids `power`, `power - 1` and so on, at most `steps` of them. -/
def Interval.search (i : Interval) (tie : Tie) (power : Int) : Nat → Option Scaled
  | 0 => none
  | steps + 1 =>
    match i.onGrid tie power with
    | some d => some d
    | none => i.search tie (power - 1) steps

/-- The shortest decimal of a finite number, without its sign. -/
def shortest (tie : Tie) (x : Binary64) : Scaled :=
  if x.isZero then ⟨0, 0⟩
  else
    let i := x.interval
    let binary := (x.significand.log2 : Int) + x.exponent
    let start := binary * 30103 / 100000 - 1
    match i.search tie (i.log10 start 3) 17 with
    | some d => d.dropZeros 20
    | none => ⟨0, 0⟩

end Binary64

end KeyAccess.Decimal
