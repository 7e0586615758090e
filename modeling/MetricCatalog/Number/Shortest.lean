/-
# Shortest decimals

The shortest decimal of a number is the one with the fewest digits among those
that round to it, and of these the one nearest to it. The search goes through
the numbers of digits from one to seventeen and tests, on the decimal grid with
that many digits, the two neighbours of the exact value.
-/

import MetricCatalog.Number.Double

namespace MetricCatalog

/-- The decimal `digits · 10 ^ exponent`. -/
structure Decimal where
  /-- The digits, read as a number. -/
  digits : Nat
  /-- The power of ten they are multiplied by. -/
  exponent : Int
  deriving DecidableEq, Repr

namespace Decimal

/-- The same decimal without zeros at the end of its digits. -/
def normalize (d : Decimal) : Decimal :=
  if h : d.digits = 0 then d
  else if d.digits % 10 = 0 then normalize ⟨d.digits / 10, d.exponent + 1⟩
  else d
termination_by d.digits
decreasing_by omega

/-- The exponent of the first digit, when the decimal is written with one digit before the point. -/
def leadingExponent (d : Decimal) : Int :=
  d.exponent + (Text.decimalDigits d.digits).length - 1

end Decimal

namespace Double

/-- The real interval of the numbers that round to a positive finite double, as quarters of its unit. -/
structure RoundingInterval where
  /-- The lower end. -/
  low : Nat
  /-- The number itself. -/
  middle : Nat
  /-- The upper end. -/
  high : Nat
  /-- Whether the ends round to the number too. -/
  closed : Bool
  /-- A quarter of the unit, as a factor above and below a fraction line. -/
  unit : Nat × Nat

/-- The interval of a positive finite double. Just above a power of two the gap below is half as wide. -/
def roundingInterval (x : Double) : RoundingInterval :=
  let m := x.significand
  let narrow := m = Nat.pow 2 52 && -1074 < x.exponent
  { low := if narrow then 4 * m - 1 else 4 * m - 2
    middle := 4 * m
    high := 4 * m + 2
    closed := m % 2 = 0
    unit := scaleByPower 2 (x.exponent - 2) }

/-- Whether the decimal `candidate · 10 ^ e` rounds to the number. -/
def RoundingInterval.admits (interval : RoundingInterval) (candidate : Nat) (e : Int) : Bool :=
  let scale := scaleByPower 10 e
  let value := candidate * scale.1 * interval.unit.2
  let low := interval.low * interval.unit.1 * scale.2
  let high := interval.high * interval.unit.1 * scale.2
  if interval.closed then low ≤ value && value ≤ high else low < value && value < high

/-- The nearer of the admitted neighbours of the number on the grid of the multiples of `10 ^ e`. -/
def RoundingInterval.onGrid? (interval : RoundingInterval) (e : Int) : Option Decimal :=
  let scale := scaleByPower 10 e
  let num := interval.middle * interval.unit.1 * scale.2
  let den := interval.unit.2 * scale.1
  let below := num / den
  let nearest := roundDiv num den
  let other := if nearest = below then below + 1 else below
  if interval.admits nearest e && nearest ≠ 0 then some ⟨nearest, e⟩
  else if interval.admits other e && other ≠ 0 then some ⟨other, e⟩
  else none

/-- The exponent of the first digit of the fraction `num / den`, which must be positive. -/
def leadingExponent (num den : Nat) : Int :=
  if den ≤ num then ((Text.decimalDigits (num / den)).length : Int) - 1
  else
    let length := (Text.decimalDigits (den / num)).length
    if den ≤ num * Nat.pow 10 (length - 1) then -((length : Int) - 1) else -(length : Int)

/-- The shortest decimal that rounds to the number without its sign; zero for zero.

Seventeen digits always suffice, so the last grid needs no test. -/
def shortest (x : Double) : Decimal :=
  if x.isZero then ⟨0, 0⟩
  else
    let interval := x.roundingInterval
    let exact := x.magnitude
    let first := leadingExponent exact.1 exact.2
    let grids := (List.range 17).map fun (count : Nat) => first - (count : Int)
    ((grids.findSome? interval.onGrid?).getD ⟨0, 0⟩).normalize

end Double

end MetricCatalog
