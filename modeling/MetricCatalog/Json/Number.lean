/-
# Numbers in JSON

An integer that fits into 64 bits, signed or unsigned, is read exactly; every
other number is read as a double. The significand keeps the digits that fit
into 64 bits and passes over the rest, and it is scaled by one power of ten, or
by several when the exponent is large. The result may therefore lie beside the
nearest double, but the same text always gives the same one.
-/

import MetricCatalog.Number.Double
import MetricCatalog.Number.Numeral

namespace MetricCatalog

namespace Json

/-- A number as it is read. -/
inductive Number
  /-- An integer of 64 bits. -/
  | int (value : Int)
  /-- Any other number. -/
  | float (value : Double)
  deriving DecidableEq, Repr

/-- The least natural number beyond 64 bits. -/
def wordLimit : Nat := UInt64.size

/-- The digits that a significand takes after those it has, and those it has no room for. -/
def takeDigits : Nat → List Nat → Nat × List Nat
  | significand, [] => (significand, [])
  | significand, digit :: rest =>
      if significand * 10 + digit < wordLimit then
        takeDigits (significand * 10 + digit) rest
      else (significand, digit :: rest)

/-- The exponent a numeral writes, or the sign of one too large for 32 bits. -/
def readScale (scale : Option Scale) : Int ⊕ Bool :=
  match scale with
  | none => .inl 0
  | some scale =>
      let e := Text.decimalValue scale.digits
      let down := scale.sign = ['-']
      if e < Nat.pow 2 31 then .inl (if down then -(e : Int) else e) else .inr down

/-- Scales a double by a power of ten: a step by `10 ^ 308` until the exponent is within the
powers that a double can hold, then one step by the power that remains. -/
def scaleDouble : Nat → Double → Int → Option Double
  | 0, x, _ => some x
  | fuel + 1, x, e =>
      if e.natAbs ≤ 308 then
        let power := Double.ofDecimal false 1 e.natAbs
        if 0 ≤ e then
          let scaled := x.mul power
          if scaled.isFinite then some scaled else none
        else some (x.div power)
      else if x.isZero then some x
      else if 0 ≤ e then none
      else scaleDouble fuel (x.div (Double.ofDecimal false 1 308)) (e + 308)

/-- The number a numeral stands for, unless it is too large for a double. -/
def readNumber (n : Numeral) : Option Number :=
  let (significand, overflow) := takeDigits 0 (n.whole.filterMap Text.digitValue?)
  if n.fraction.isEmpty && n.scale.isNone && overflow.isEmpty then
    if !n.negative then some (.int significand)
    else if significand = 0 || Nat.pow 2 63 < significand then
      some (.float (Double.ofNat significand).neg)
    else some (.int (-significand))
  else
    let digits := n.fraction.filterMap Text.digitValue?
    let (significand, rest) := takeDigits significand digits
    let shift : Int := (overflow.length : Int) - ((digits.length - rest.length : Nat) : Int)
    let signed (x : Double) : Number := .float (if n.negative then x.neg else x)
    match readScale n.scale with
    | .inl e => (scaleDouble 20 (Double.ofNat significand) (shift + e)).map signed
    | .inr down => if down || significand = 0 then some (signed (.zero false)) else none

end Json

end MetricCatalog
