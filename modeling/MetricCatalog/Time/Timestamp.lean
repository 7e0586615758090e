/-
# Written instants

Instants are written as date, `T`, time and `Z`, with no fraction or one of
three, six or nine digits, the fewest that lose nothing. The reader also takes a
lower-case `t` or a space between date and time, spaces before the fields, any
offset from universal time, and longer fractions, of which it drops what is
below a nanosecond.
-/

import MetricCatalog.Time.Instant
import MetricCatalog.Text.Blank
import MetricCatalog.Text.Digits

namespace MetricCatalog

namespace Instant

/-- The year: four digits, or a sign and at least four digits outside of the years 0 to 9999. -/
def formatYear (year : Int) : List Char :=
  if 0 ≤ year && year ≤ 9999 then Text.paddedDigits 4 year.toNat
  else (if year < 0 then '-' else '+') :: Text.paddedDigits 4 year.natAbs

/-- The fraction of a second, with the fewest digits of none, three, six and nine. -/
def formatFraction (nanos : Nat) : List Char :=
  if nanos = 0 then []
  else if nanos % 1000000 = 0 then '.' :: Text.paddedDigits 3 (nanos / 1000000)
  else if nanos % 1000 = 0 then '.' :: Text.paddedDigits 6 (nanos / 1000)
  else '.' :: Text.paddedDigits 9 nanos

/-- The written form of an instant. -/
def format (instant : Instant) : String :=
  let date := CivilDate.ofDays (instant.seconds / 86400)
  let second := (instant.seconds % 86400).toNat
  let isLeap := 1000000000 ≤ instant.nanos
  let shown := if isLeap then second % 60 + 1 else second % 60
  let nanos := if isLeap then instant.nanos - 1000000000 else instant.nanos
  String.ofList <|
    formatYear date.year ++ '-' :: Text.paddedDigits 2 date.month ++
      '-' :: Text.paddedDigits 2 date.day ++
      'T' :: Text.paddedDigits 2 (second / 3600) ++
      ':' :: Text.paddedDigits 2 (second / 60 % 60) ++
      ':' :: Text.paddedDigits 2 shown ++ formatFraction nanos ++ ['Z']

/-- A number of one to `width` digits at the front, and what follows it. -/
def readNumber (width : Nat) (text : List Char) : Option (Nat × List Char) :=
  let digits := (text.take width).takeWhile Text.isDigit
  (Text.decimal? digits).map fun value => (value, text.drop digits.length)

/-- A number in the given range, with spaces allowed before it. -/
def readField (width low high : Nat) (text : List Char) : Option (Nat × List Char) := do
  let (value, rest) ← readNumber width (Text.trimStart text)
  if low ≤ value && value ≤ high then some (value, rest) else none

/-- A year: up to four digits, or a sign and any number of them. -/
def readYear (text : List Char) : Option (Int × List Char) :=
  match Text.trimStart text with
  | '-' :: rest => (readNumber rest.length rest).map fun (value, after) => (-(value : Int), after)
  | '+' :: rest => (readNumber rest.length rest).map fun (value, after) => ((value : Int), after)
  | rest => (readNumber 4 rest).map fun (value, after) => ((value : Int), after)

/-- What follows the mark, with spaces allowed before it. -/
def readMark (mark : Char) (text : List Char) : Option (List Char) :=
  match Text.trimStart text with
  | c :: rest => if c = mark then some rest else none
  | [] => none

/-- A fraction of a second in nanoseconds, if there is one. -/
def readFraction (text : List Char) : Option (Nat × List Char) :=
  match text with
  | '.' :: rest => do
      let (_, _) ← readNumber 1 rest
      let digits := (rest.take 9).takeWhile Text.isDigit
      let nanos := Text.decimalValue digits * Nat.pow 10 (9 - digits.length)
      some (nanos, rest.dropWhile Text.isDigit)
  | rest => some (0, rest)

/-- An offset from universal time in seconds: `Z`, `UTC`, or a sign, hours and minutes. -/
def readOffset (text : List Char) : Option (Int × List Char) :=
  let signed (negative : Bool) (rest : List Char) : Option (Int × List Char) := do
    let hours ← Text.decimal? (rest.take 2)
    if (rest.take 2).length ≠ 2 then none
    let afterHours := (rest.drop 2).dropWhile fun c => c = ':' || Text.isBlank c
    let minutes ← Text.decimal? (afterHours.take 2)
    if (afterHours.take 2).length ≠ 2 || 60 ≤ minutes then none
    let offset : Int := (hours * 3600 + minutes * 60 : Nat)
    some (if negative then -offset else offset, afterHours.drop 2)
  if (text.take 3).map Char.toUpper = ['U', 'T', 'C'] then some (0, text.drop 3)
  else
    match text with
    | 'Z' :: rest | 'z' :: rest => some (0, rest)
    | '+' :: rest => signed false rest
    | '-' :: rest | '\u2212' :: rest => signed true rest
    | _ => none

/-- The instant a text writes. -/
def parse? (text : String) : Option Instant := do
  let (year, rest) ← readYear text.toList
  let rest ← readMark '-' rest
  let (month, rest) ← readField 2 1 12 rest
  let rest ← readMark '-' rest
  let (day, rest) ← readField 2 1 31 rest
  let rest ←
    match rest with
    | 'T' :: after | 't' :: after | ' ' :: after => some after
    | _ => none
  let (hour, rest) ← readField 2 0 23 rest
  let rest ← readMark ':' rest
  let (minute, rest) ← readField 2 0 59 rest
  let rest ← readMark ':' rest
  let (second, rest) ← readField 2 0 60 rest
  let (nanos, rest) ← readFraction rest
  let (offset, rest) ← readOffset (Text.trimStart rest)
  let date : CivilDate := ⟨year, month, day⟩
  if !date.isValid || !(Text.trimStart rest).isEmpty then none
  if 86400 ≤ offset.natAbs || 262142 < year || year < -262143 then none
  let isLeap := second = 60
  let within : Int := (hour * 3600 + minute * 60 + (if isLeap then 59 else second) : Nat)
  some ⟨date.toDays * 86400 + within - offset, if isLeap then nanos + 1000000000 else nanos⟩

end Instant

end MetricCatalog
