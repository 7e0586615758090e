/-
# Numerals

A numeral is a number as it is written: a sign, digits, perhaps digits after a
point, perhaps an exponent. It keeps the digits, so that a reader can decide how
much of them it takes.
-/

import MetricCatalog.Text.Digits

namespace MetricCatalog

/-- The exponent of a numeral. -/
structure Scale where
  /-- What stands before the digits: nothing, a plus or a minus. -/
  sign : List Char
  /-- The digits. -/
  digits : List Char
  deriving DecidableEq, Repr

/-- A number as it is written. -/
structure Numeral where
  /-- Whether a minus stands in front. -/
  negative : Bool
  /-- The digits before the point. -/
  whole : List Char
  /-- The digits after the point; without any there is no point. -/
  fraction : List Char
  /-- The exponent, if there is one. -/
  scale : Option Scale
  deriving DecidableEq, Repr

namespace Numeral

/-- The written form. -/
def text (n : Numeral) : List Char :=
  (if n.negative then ['-'] else []) ++ n.whole ++
    (if n.fraction.isEmpty then [] else '.' :: n.fraction) ++
    match n.scale with
    | none => []
    | some scale => 'e' :: (scale.sign ++ scale.digits)

/-- The numeral of a natural number. -/
def ofNat (n : Nat) : Numeral := ⟨false, Text.decimalDigits n, [], none⟩

/-- The numeral of an integer. -/
def ofInt (n : Int) : Numeral := ⟨n < 0, Text.decimalDigits n.natAbs, [], none⟩

end Numeral

end MetricCatalog
