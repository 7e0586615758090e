/-
# Digits

Values of decimal and hexadecimal digits, and the numbers that runs of them
write. Only the ASCII digits count.
-/

namespace MetricCatalog.Text

/-- The value of a decimal digit. -/
def digitValue? (c : Char) : Option Nat :=
  if '0' ≤ c && c ≤ '9' then some (c.toNat - '0'.toNat) else none

/-- Whether the character is a decimal digit. -/
def isDigit (c : Char) : Bool := (digitValue? c).isSome

/-- The value of a hexadecimal digit, of either case. -/
def hexValue? (c : Char) : Option Nat :=
  if '0' ≤ c && c ≤ '9' then some (c.toNat - '0'.toNat)
  else if 'a' ≤ c && c ≤ 'f' then some (c.toNat - 'a'.toNat + 10)
  else if 'A' ≤ c && c ≤ 'F' then some (c.toNat - 'A'.toNat + 10)
  else none

/-- Whether the character is a hexadecimal digit. -/
def isHexDigit (c : Char) : Bool := (hexValue? c).isSome

/-- Appends digits, given by their values, to a number in the given base. -/
def appendDigits (base start : Nat) (values : List Nat) : Nat :=
  values.foldl (fun total value => base * total + value) start

/-- The number that the decimal digits of the text write; other characters are passed over. -/
def decimalValue (text : List Char) : Nat :=
  appendDigits 10 0 (text.filterMap digitValue?)

/-- The number a non-empty run of decimal digits writes. -/
def decimal? (text : List Char) : Option Nat :=
  if text.isEmpty then none
  else (text.mapM digitValue?).map (appendDigits 10 0)

/-- The number a non-empty run of hexadecimal digits writes. -/
def hexadecimal? (text : List Char) : Option Nat :=
  if text.isEmpty then none
  else (text.mapM hexValue?).map (appendDigits 16 0)

/-- The decimal digits of a number. -/
def decimalDigits (n : Nat) : List Char := Nat.toDigits 10 n

/-- The decimal digits of a number, with zeros in front up to the given width. -/
def paddedDigits (width n : Nat) : List Char :=
  let digits := decimalDigits n
  List.replicate (width - digits.length) '0' ++ digits

/-- The lower-case hexadecimal digits of a number, with zeros in front up to the given width. -/
def paddedHexDigits (width n : Nat) : List Char :=
  let digits := Nat.toDigits 16 n
  List.replicate (width - digits.length) '0' ++ digits

end MetricCatalog.Text
