/-
# Reading JSON text

The tree of a text. Reading never fails: where the text stops being JSON the
tree ends with a broken leaf, and nothing after that place is looked at.
-/

import MetricCatalog.Json.Basic

namespace MetricCatalog

namespace Json

/-- Whether the character may stand between the parts of a text. -/
def isSpace (c : Char) : Bool := c = ' ' || c = '\n' || c = '\t' || c = '\r'

/-- The text without the spaces it starts with. -/
def skipSpace (text : List Char) : List Char := text.dropWhile isSpace

/-- The code point that an escape of one letter stands for. -/
def escapeValue? (c : Char) : Option Nat :=
  match c with
  | '"' => some 0x22
  | '\\' => some 0x5C
  | '/' => some 0x2F
  | 'b' => some 0x08
  | 'f' => some 0x0C
  | 'n' => some 0x0A
  | 'r' => some 0x0D
  | 't' => some 0x09
  | _ => none

/-- The code points of a string up to its closing quote, surrogates among them, and the text
behind the quote. -/
def stringUnits : List Char → Option (List Nat × List Char)
  | [] => none
  | '"' :: rest => some ([], rest)
  | '\\' :: 'u' :: a :: b :: c :: d :: rest => do
      let unit ← Text.hexadecimal? [a, b, c, d]
      let (units, rest) ← stringUnits rest
      some (unit :: units, rest)
  | '\\' :: c :: rest => do
      let unit ← escapeValue? c
      let (units, rest) ← stringUnits rest
      some (unit :: units, rest)
  | c :: rest => do
      guard (32 ≤ c.toNat)
      let (units, rest) ← stringUnits rest
      some (c.toNat :: units, rest)

/-- Whether the code point is the first half of a surrogate pair. -/
def isHighSurrogate (unit : Nat) : Bool := 0xD800 ≤ unit && unit < 0xDC00

/-- Whether the code point is the second half of a surrogate pair. -/
def isLowSurrogate (unit : Nat) : Bool := 0xDC00 ≤ unit && unit < 0xE000

/-- The characters of a string, if every surrogate in it has its other half. -/
def joinSurrogates : List Nat → Option (List Char)
  | [] => some []
  | unit :: rest =>
      if isHighSurrogate unit then
        match rest with
        | [] => none
        | second :: rest =>
            if isLowSurrogate second then
              let value := 0x10000 + (unit - 0xD800) * 0x400 + (second - 0xDC00)
              (joinSurrogates rest).map (Char.ofNat value :: ·)
            else none
      else if isLowSurrogate unit then none
      else (joinSurrogates rest).map (Char.ofNat unit :: ·)

/-- The string whose opening quote has been read. -/
def parseString (text : List Char) : Json × List Char :=
  match stringUnits text with
  | none => (.broken, [])
  | some (units, rest) =>
      match joinSurrogates units with
      | none => (.unpaired, rest)
      | some content => (.str (String.ofList content), rest)

/-- A run of digits that is not empty, and the text behind it. -/
def digitRun? (text : List Char) : Option (List Char × List Char) :=
  let digits := text.takeWhile Text.isDigit
  if digits.isEmpty then none else some (digits, text.dropWhile Text.isDigit)

/-- The exponent a text starts with, if it has one; `none` if it is cut short. -/
def parseScale? (text : List Char) : Option (Option Scale × List Char) :=
  let scale (sign rest : List Char) : Option (Option Scale × List Char) :=
    (digitRun? rest).map fun run => (some ⟨sign, run.1⟩, run.2)
  match text with
  | 'e' :: '+' :: rest | 'E' :: '+' :: rest => scale ['+'] rest
  | 'e' :: '-' :: rest | 'E' :: '-' :: rest => scale ['-'] rest
  | 'e' :: rest | 'E' :: rest => scale [] rest
  | _ => some (none, text)

/-- The fraction a text starts with, if it has one; `none` if it is cut short. -/
def parseFraction? (text : List Char) : Option (List Char × List Char) :=
  match text with
  | '.' :: rest => digitRun? rest
  | _ => some ([], text)

/-- The number a text starts with. A zero stands alone before the point. -/
def parseNumeral? (text : List Char) : Option (Numeral × List Char) := do
  let (negative, text) :=
    match text with
    | '-' :: rest => (true, rest)
    | _ => (false, text)
  let (whole, text) ← digitRun? text
  guard (whole.head? ≠ some '0' || whole.length = 1)
  let (fraction, text) ← parseFraction? text
  let (scale, text) ← parseScale? text
  some (⟨negative, whole, fraction, scale⟩, text)

/-- The word or number a text starts with. -/
def parseScalar (text : List Char) : Json × List Char :=
  match text with
  | 'n' :: 'u' :: 'l' :: 'l' :: rest => (.null, rest)
  | 't' :: 'r' :: 'u' :: 'e' :: rest => (.bool true, rest)
  | 'f' :: 'a' :: 'l' :: 's' :: 'e' :: rest => (.bool false, rest)
  | _ =>
      match parseNumeral? text with
      | some (n, rest) => (.num n, rest)
      | none => (.broken, [])

mutual

/-- The value a text starts with, and the text behind it. The fuel bounds the steps; the length
of the text is enough. -/
def parseValue : Nat → List Char → Json × List Char
  | 0, _ => (.broken, [])
  | fuel + 1, text =>
      match skipSpace text with
      | '"' :: rest => parseString rest
      | '[' :: rest =>
          match skipSpace rest with
          | ']' :: rest => (.arr [], rest)
          | rest =>
              let (items, rest) := parseItems fuel rest
              (.arr items, rest)
      | '{' :: rest =>
          match skipSpace rest with
          | '}' :: rest => (.obj [], rest)
          | rest =>
              let (fields, rest) := parseFields fuel rest
              (.obj fields, rest)
      | rest => parseScalar rest

/-- The items of an array up to its closing bracket. -/
def parseItems : Nat → List Char → List Json × List Char
  | 0, _ => ([.broken], [])
  | fuel + 1, text =>
      let (item, rest) := parseValue fuel text
      match skipSpace rest with
      | ']' :: rest => ([item], rest)
      | ',' :: rest =>
          let (items, rest) := parseItems fuel rest
          (item :: items, rest)
      | _ => ([item, .broken], [])

/-- The fields of an object up to its closing brace. -/
def parseFields : Nat → List Char → List (Json × Json) × List Char
  | 0, _ => ([(.broken, .broken)], [])
  | fuel + 1, text =>
      let (key, rest) := parseValue fuel text
      match skipSpace rest with
      | ':' :: rest =>
          let (value, rest) := parseValue fuel rest
          match skipSpace rest with
          | '}' :: rest => ([(key, value)], rest)
          | ',' :: rest =>
              let (fields, rest) := parseFields fuel rest
              ((key, value) :: fields, rest)
          | _ => ([(key, value), (.broken, .broken)], [])
      | _ => ([(key, .broken)], [])

end

/-- The tree of a text, and whether nothing but space stands behind it. -/
def parse (text : String) : Json × Bool :=
  let (value, rest) := parseValue (text.length + 1) text.toList
  (value, (skipSpace rest).isEmpty)

end Json

end MetricCatalog
