/-
# What a scalar stands for

A scalar that is written plainly may stand for something else than its text:
for nothing, for a truth value, for a number. A tag can ask for one of these.
-/

import MetricCatalog.Number.Double
import MetricCatalog.Yaml.Node

namespace MetricCatalog

namespace Yaml

/-- What a scalar stands for. -/
inductive ScalarValue
  | null
  | bool (value : Bool)
  | int (value : Int)
  | float (value : Double)
  | text (value : String)
  deriving DecidableEq, Repr

/-- Whether the text stands for nothing. -/
def isNull (text : String) : Bool := ["null", "Null", "NULL", "~"].contains text

/-- The truth value that the text stands for. -/
def bool? (text : String) : Option Bool :=
  if ["true", "True", "TRUE"].contains text then some true
  else if ["false", "False", "FALSE"].contains text then some false
  else none

/-- The value of a digit in a base. -/
def digitIn? (base : Nat) (c : Char) : Option Nat :=
  (Text.hexValue? c).filter (· < base)

/-- The number that a non-empty run of digits in a base writes. -/
def natIn? (base : Nat) (digits : List Char) : Option Nat :=
  if digits.isEmpty then none
  else (digits.mapM (digitIn? base)).map (Text.appendDigits base 0)

/-- A text without the sign it may start with. -/
def withoutSign : List Char → List Char
  | '+' :: rest | '-' :: rest => rest
  | text => text

/-- Whether the text is a run of digits with a superfluous zero in front, perhaps behind a sign.
Such a text is no number. -/
def isPadded (text : List Char) : Bool :=
  match withoutSign text with
  | '0' :: c :: rest => (c :: rest).all Text.isDigit
  | _ => false

/-- The natural number that a text without a sign writes, in base ten or in the base its start
names. -/
def magnitude? : List Char → Option Nat
  | '0' :: 'x' :: digits => natIn? 16 digits
  | '0' :: 'o' :: digits => natIn? 8 digits
  | '0' :: 'b' :: digits => natIn? 2 digits
  | digits => natIn? 10 digits

/-- The integer that the text stands for. It has to fit into 128 bits. -/
def int? (text : String) : Option Int :=
  let written := text.toList
  if isPadded written then none
  else
    match written with
    | '-' :: rest => do
        let n ← magnitude? rest
        guard (n ≤ Nat.pow 2 127)
        some (-(n : Int))
    | _ => do
        let n ← magnitude? (if written.head? = some '+' then written.drop 1 else written)
        guard (n < Nat.pow 2 128)
        some (n : Int)

/-- The number that a decimal writes: digits, perhaps with a point before, between or behind them,
perhaps with an exponent. -/
def decimal? (negative : Bool) (written : List Char) : Option Double := do
  let whole := written.takeWhile Text.isDigit
  let rest := written.dropWhile Text.isDigit
  let fraction :=
    match rest with
    | '.' :: rest => rest.takeWhile Text.isDigit
    | _ => []
  let rest :=
    match rest with
    | '.' :: rest => rest.dropWhile Text.isDigit
    | _ => rest
  guard (!whole.isEmpty || !fraction.isEmpty)
  let scale ←
    match rest with
    | [] => some 0
    | c :: exponent => do
        guard (c = 'e' || c = 'E')
        let e ← Text.decimal? (withoutSign exponent)
        some (if exponent.head? = some '-' then -(e : Int) else e)
  let digits := Text.decimalValue (whole ++ fraction)
  some (.ofDecimal negative digits (scale - fraction.length))

/-- The number that the text stands for. -/
def double? (text : String) : Option Double :=
  if [".inf", ".Inf", ".INF", "+.inf", "+.Inf", "+.INF"].contains text then
    some (.infinity false)
  else if ["-.inf", "-.Inf", "-.INF"].contains text then some (.infinity true)
  else if [".nan", ".NaN", ".NAN"].contains text then
    some (.ofMagnitude false (Double.infinityBits + Nat.pow 2 51))
  else
    let written := text.toList
    (decimal? (written.head? = some '-') (withoutSign written)).filter (·.isFinite)

/-- What a plain text stands for. -/
def resolvePlain (text : String) : ScalarValue :=
  if text.isEmpty || isNull text then .null
  else
    match bool? text, int? text with
    | some value, _ => .bool value
    | none, some value => .int value
    | none, none =>
        if isPadded text.toList then .text text
        else
          match double? text with
          | some value => .float value
          | none => .text text

/-- The start of the tags that every document knows. -/
def commonTag (name : String) : String := "tag:yaml.org,2002:" ++ name

/-- What a scalar stands for; or, if it is not what its tag asks for, what that would be. -/
def resolve (text : String) (style : ScalarStyle) (tag : Option String) :
    Except String ScalarValue :=
  let asked (value : Option ScalarValue) (kind : String) : Except String ScalarValue :=
    match value with
    | some value => .ok value
    | none => .error kind
  match tag with
  | none => .ok (if style = .plain then resolvePlain text else .text text)
  | some tag =>
      if tag = commonTag "bool" then asked ((bool? text).map .bool) "a boolean"
      else if tag = commonTag "int" then asked ((int? text).map .int) "an integer"
      else if tag = commonTag "float" then asked ((double? text).map .float) "a float"
      else if tag = commonTag "null" then asked (if isNull text then some .null else none) "null"
      else if style = .plain && tag.toList.head? = some '!' then .ok (resolvePlain text)
      else .ok (.text text)

end Yaml

end MetricCatalog
