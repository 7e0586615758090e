/-
# Double precision numbers

A `Double` is a 64-bit binary floating point number, kept as its bits. Finite
numbers are integers times a power of two, and every operation here computes
with that exact value and rounds once, to the nearest number and to the even
one of two equally near.
-/

import MetricCatalog.Text.Digits

namespace MetricCatalog

/-- A 64-bit binary floating point number. -/
structure Double where
  /-- Sign, exponent and fraction, from the highest bit to the lowest. -/
  bits : UInt64
  deriving DecidableEq, Repr, Inhabited

namespace Double

/-- The bits without the sign. -/
def magnitudeBits (x : Double) : Nat := x.bits.toNat % Nat.pow 2 63

/-- Whether the sign bit is set. Zero has both signs. -/
def isNegative (x : Double) : Bool := Nat.pow 2 63 ≤ x.bits.toNat

/-- The bits of infinity. -/
def infinityBits : Nat := 2047 * Nat.pow 2 52

/-- Whether the number is neither infinite nor a NaN. -/
def isFinite (x : Double) : Bool := x.magnitudeBits < infinityBits

/-- Whether the bits are those of a NaN. -/
def isNaN (x : Double) : Bool := infinityBits < x.magnitudeBits

/-- Whether the number is zero, of either sign. -/
def isZero (x : Double) : Bool := x.magnitudeBits = 0

/-- The number with the given sign and the given bits below it. -/
def ofMagnitude (negative : Bool) (magnitude : Nat) : Double :=
  ⟨UInt64.ofNat (if negative then Nat.pow 2 63 + magnitude else magnitude)⟩

/-- Zero, of the given sign. -/
def zero (negative : Bool) : Double := ofMagnitude negative 0

/-- Infinity, of the given sign. -/
def infinity (negative : Bool) : Double := ofMagnitude negative infinityBits

/-- The number with its sign turned. -/
def neg (x : Double) : Double := ofMagnitude (!x.isNegative) x.magnitudeBits

/-- The integer of which a finite number is a multiple by a power of two. -/
def significand (x : Double) : Nat :=
  let fraction := x.magnitudeBits % Nat.pow 2 52
  if x.magnitudeBits / Nat.pow 2 52 = 0 then fraction else Nat.pow 2 52 + fraction

/-- The exponent of that power of two. -/
def exponent (x : Double) : Int :=
  let field : Nat := x.magnitudeBits / Nat.pow 2 52
  if field = 0 then -1074 else (field : Int) - 1075

/-- A power of two as a factor above and a factor below a fraction line. -/
def scaleByPower (base : Nat) (e : Int) : Nat × Nat :=
  if 0 ≤ e then (Nat.pow base e.toNat, 1) else (1, Nat.pow base (-e).toNat)

/-- The quotient to the nearest integer, and to the even one of two equally near. -/
def roundDiv (num den : Nat) : Nat :=
  let quotient := num / den
  let rest := num % den
  if den < 2 * rest || (2 * rest = den && quotient % 2 = 1) then quotient + 1 else quotient

/-- The number nearest to the fraction `num / den`; too large a fraction gives infinity.

The exponent is chosen so that the quotient has 53 bits, unless that would take
it below the least exponent. Rounding the quotient up to 54 bits carries into
the exponent field, which is what the sum of the two fields does by itself. -/
def ofFraction (negative : Bool) (num den : Nat) : Double :=
  if num = 0 then zero negative
  else
    let guess : Int := (num.log2 : Int) - den.log2 - 52
    let quotientAt (e : Int) : Nat × Nat :=
      let scale := scaleByPower 2 e
      (num * scale.2, den * scale.1)
    let first := quotientAt guess
    let e := if first.1 < Nat.pow 2 52 * first.2 then guess - 1 else guess
    let e := max e (-1074)
    let fraction := quotientAt e
    let magnitude := (e + 1074).toNat * Nat.pow 2 52 + roundDiv fraction.1 fraction.2
    ofMagnitude negative (min magnitude infinityBits)

/-- The number nearest to an integer. -/
def ofInt (n : Int) : Double := ofFraction (n < 0) n.natAbs 1

/-- The number nearest to a natural number. -/
def ofNat (n : Nat) : Double := ofFraction false n 1

/-- The number nearest to `digits · 10 ^ e`.

Decimals beyond the range on either side are settled by their size alone, so a
huge exponent costs nothing. -/
def ofDecimal (negative : Bool) (digits : Nat) (e : Int) : Double :=
  if digits = 0 then zero negative
  else
    let size : Int := (Text.decimalDigits digits).length + e
    if 310 < size then infinity negative
    else if size < -330 then zero negative
    else
      let scale := scaleByPower 10 e
      ofFraction negative (digits * scale.1) scale.2

/-- The exact value of a finite number as a fraction, without its sign. -/
def magnitude (x : Double) : Nat × Nat :=
  let scale := scaleByPower 2 x.exponent
  (x.significand * scale.1, scale.2)

/-- The product, for finite factors. -/
def mul (x y : Double) : Double :=
  let first := x.magnitude
  let second := y.magnitude
  ofFraction (x.isNegative != y.isNegative) (first.1 * second.1) (first.2 * second.2)

/-- The quotient, for a finite dividend and a finite divisor that is not zero. -/
def div (x y : Double) : Double :=
  let first := x.magnitude
  let second := y.magnitude
  ofFraction (x.isNegative != y.isNegative) (first.1 * second.2) (first.2 * second.1)

/-- The position of the number in the order of the numbers, both zeros at the same place. -/
def orderKey (x : Double) : Int :=
  if x.isNegative then -(x.magnitudeBits : Int) else x.magnitudeBits

/-- How a number lies to an integer, compared exactly. -/
def compareInt (x : Double) (n : Int) : Ordering :=
  if !x.isFinite then (if x.isNegative then .lt else .gt)
  else
    let exact := x.magnitude
    let value : Int := if x.isNegative then -(exact.1 : Int) else exact.1
    compare value (n * exact.2)

end Double

end MetricCatalog
