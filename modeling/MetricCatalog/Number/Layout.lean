/-
# Written forms of double precision numbers

A number is written with its shortest digits, either in full, with a point and
at least one digit on each side of it, or with one digit before the point and an
exponent. A `Layout` says which of the two is used and how the exponent looks.
-/

import MetricCatalog.Number.Shortest
import MetricCatalog.Number.Numeral

namespace MetricCatalog

/-- How the digits of a number are laid out. -/
structure Layout where
  /-- The least exponent of the first digit for which the number is written in full. -/
  fullFrom : Int
  /-- The least exponent of the first digit from which on an exponent is written again. -/
  fullBelow : Int
  /-- What stands between the `e` and the digits of an exponent that is not negative. -/
  exponentSign : List Char
  deriving Repr

namespace Layout

/-- The form in catalogs and results: in full from `0.00001` to below `1e+16`. -/
def json : Layout := ⟨-5, 16, ['+']⟩

/-- The form in statements: in full from `0.0001` to below `1e16`. -/
def sql : Layout := ⟨-4, 16, []⟩

/-- The form in diagnostics on definitions: always in full. -/
def full : Layout := ⟨-400, 400, []⟩

/-- The numeral in full whose point stands after the first `position` digits, or that many
zeros before them. -/
def placePoint (negative : Bool) (digits : List Char) (position : Int) : Numeral :=
  if position ≤ 0 then
    ⟨negative, ['0'], List.replicate (-position).toNat '0' ++ digits, none⟩
  else
    let whole := position.toNat
    if digits.length ≤ whole then
      ⟨negative, digits ++ List.replicate (whole - digits.length) '0', ['0'], none⟩
    else ⟨negative, digits.take whole, digits.drop whole, none⟩

/-- The numeral with one digit before the point, and none after it if there are no more. -/
def withExponent (layout : Layout) (negative : Bool) (digits : List Char) (e : Int) : Numeral :=
  let sign := if e < 0 then ['-'] else layout.exponentSign
  ⟨negative, digits.take 1, digits.drop 1, some ⟨sign, Text.decimalDigits e.natAbs⟩⟩

/-- The numeral of a finite number. -/
def numeral (layout : Layout) (x : Double) : Numeral :=
  let decimal := x.shortest
  let digits := Text.decimalDigits decimal.digits
  let e := decimal.leadingExponent
  if x.isZero || (layout.fullFrom ≤ e && e < layout.fullBelow) then
    placePoint x.isNegative digits (e + 1)
  else layout.withExponent x.isNegative digits e

/-- The written form of a finite number. -/
def format (layout : Layout) (x : Double) : String := String.ofList (layout.numeral x).text

/-- The written form of any number. Those that are not finite have names. -/
def describe (layout : Layout) (x : Double) : String :=
  if x.isFinite then layout.format x
  else if x.isNaN then "NaN"
  else if x.isNegative then "-inf"
  else "inf"

end Layout

end MetricCatalog
