/-
# Literals

The right-hand sides of filters: integers, numbers, quoted strings and truth
values, how they are read and how they are written in a statement.
-/

import MetricCatalog.Number.Layout
import MetricCatalog.Text.Quoted

namespace MetricCatalog

/-- A constant in a filter. -/
inductive Literal
  /-- An integer of 64 bits. -/
  | int (value : Int64)
  /-- A finite number. -/
  | float (value : Double)
  | str (value : String)
  | bool (value : Bool)
  deriving DecidableEq, Repr

namespace Literal

/-- What an escape of one letter stands for. -/
def escape? (c : Char) : Option Char :=
  match c with
  | 'n' => some '\n'
  | 't' => some '\t'
  | 'r' => some '\r'
  | '0' => some '\x00'
  | '\\' => some '\\'
  | '\'' => some '\''
  | '"' => some '"'
  | _ => none

/-- The text in quotes whose opening quote has been read. The closing quote is the last
character. -/
def quotedBody (quote : Char) : List Char → Option (List Char)
  | [] => none
  | '\\' :: c :: rest => do
      let value ← escape? c
      let body ← quotedBody quote rest
      some (value :: body)
  | c :: rest =>
      if c = '\\' then none
      else if c = quote then if rest.isEmpty then some [] else none
      else (quotedBody quote rest).map (c :: ·)

/-- Whether a minus stands in front, and the text behind the sign. -/
def splitSign : List Char → Bool × List Char
  | '-' :: rest => (true, rest)
  | '+' :: rest => (false, rest)
  | text => (false, text)

/-- An integer without a sign, if there are only digits. -/
def natural? (text : List Char) : Option Nat := Text.decimal? text

/-- The integer a sign and digits write, if it has 64 bits. -/
def intOf (negative : Bool) (magnitude : Nat) : Option Int64 :=
  let value : Int := if negative then -magnitude else magnitude
  if Int64.minValue.toInt ≤ value && value ≤ Int64.maxValue.toInt then some (Int64.ofInt value) else none

/-- The exponent a text is: nothing, or a letter, a sign or none, and digits. -/
def exponent? : List Char → Option Int
  | [] => some 0
  | c :: rest =>
      if c = 'e' || c = 'E' then
        let (negative, digits) := splitSign rest
        (natural? digits).map fun n => if negative then -(n : Int) else n
      else none

/-- The finite number a text writes: digits with at most one point among them or at their ends,
and perhaps an exponent. -/
def float? (negative : Bool) (text : List Char) : Option Double := do
  let whole := text.takeWhile Text.isDigit
  let rest := text.dropWhile Text.isDigit
  let (fraction, rest) :=
    match rest with
    | '.' :: rest => (rest.takeWhile Text.isDigit, rest.dropWhile Text.isDigit)
    | rest => ([], rest)
  guard (!(whole.isEmpty && fraction.isEmpty))
  let e ← exponent? rest
  let value :=
    Double.ofDecimal negative (Text.decimalValue (whole ++ fraction)) (e - fraction.length)
  guard value.isFinite
  some value

/-- The number a text writes. Digits alone are an integer, or nothing if it is too large. -/
def number? (text : List Char) : Option Literal :=
  let (negative, body) := splitSign text
  match natural? body with
  | some n => (intOf negative n).map .int
  | none => (float? negative body).map .float

/-- The literal a text writes. -/
def parseText (text : List Char) : Option Literal :=
  if text = "true".toList || text = "True".toList then some (.bool true)
  else if text = "false".toList || text = "False".toList then some (.bool false)
  else
    match text with
    | [] => none
    | c :: rest =>
        if c = '\'' || c = '"' then
          (quotedBody c rest).map fun body => .str (String.ofList body)
        else if Text.isDigit c || c = '-' || c = '+' || c = '.' then number? text
        else none

/-- The literal a text writes. -/
def parse? (text : String) : Option Literal := parseText text.toList

/-- The literal in a statement. -/
def sql : Literal → String
  | int value => toString value.toInt
  | float value => Layout.sql.format value
  | str value => Text.quoteString value
  | bool true => "TRUE"
  | bool false => "FALSE"

end Literal

end MetricCatalog
