/-
# Values of rows

What a field of a row can hold, and its form in JSON. The form does not say
which kind of value it is: a reader takes the first kind that fits, in the order
in which the kinds are listed.
-/

import MetricCatalog.Catalog.Codec

namespace MetricCatalog

/-- A field of a row. -/
inductive Value
  /-- No value. -/
  | null
  | bool (value : Bool)
  /-- An integer of 64 bits. -/
  | int (value : Int64)
  | float (value : Double)
  | text (value : String)
  /-- A string of bytes. -/
  | bytes (value : List UInt8)
  deriving DecidableEq, Repr, Inhabited

/-- The fields of a result, in the order of its columns. -/
abbrev Row := List Value

namespace Codec

open Json

/-- A value in JSON. -/
def ofValue : Value → Json
  | .null => .null
  | .bool value => .bool value
  | .int value => .num (.ofInt value.toInt)
  | .float value => ofDouble value
  | .text value => .str value
  | .bytes value => .arr (value.map fun byte => Json.nat byte.toNat)

/-- The byte a value is. -/
def byte? : Json → Option UInt8
  | .num numeral =>
      match readNumber numeral with
      | some (.int n) => if 0 ≤ n && n < 256 then some (UInt8.ofNat n.toNat) else none
      | _ => none
  | _ => none

/-- The first kind of value that fits. -/
def value? : Json → Option Value
  | .null => some .null
  | .bool value => some (.bool value)
  | .num numeral =>
      match readNumber numeral with
      | some (.int n) =>
          if n ≤ Int64.maxValue.toInt then some (.int (Int64.ofInt n))
          else some (.float (Double.ofInt n))
      | some (.float x) => some (.float x)
      | none => none
  | .str text => some (.text text)
  | .arr items => (items.mapM byte?).map .bytes
  | .obj _ | .unpaired | .broken => none

/-- Reads a value that stands at some depth of its text. -/
def readValue (level : Nat) : Decoder Value := fun value =>
  if !value.canBuffer level then .error .malformed
  else
    match value? value with
    | some value => .ok value
    | none => .error (.unmatched "Value")

end Codec

end MetricCatalog
