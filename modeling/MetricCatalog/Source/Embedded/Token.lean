/-
# Tokens of statements for embedded databases

Words, names in quotes, constants and marks, each with the place where it stands
in the text. Spaces and comments lie between them.
-/

import MetricCatalog.Number.Double
import MetricCatalog.Query.Literal
import MetricCatalog.Text.Location

namespace MetricCatalog

namespace Embedded

/-- A token of a statement. -/
inductive Token
  /-- A word that is not in quotes. -/
  | word (text : String)
  /-- A name in quotes. -/
  | name (text : String)
  | text (value : String)
  /-- A string of bytes. -/
  | bytes (value : List UInt8)
  /-- Digits. -/
  | natural (value : Nat)
  /-- Digits with a point or an exponent. -/
  | decimal (value : Double)
  /-- A place for a value that is given later. -/
  | parameter
  /-- A mark of one or two characters. -/
  | mark (text : String)
  /-- Something that is no token. -/
  | unknown
  /-- The end of the text. -/
  | finish
  deriving DecidableEq, Repr

/-- A token and its place. -/
structure Lexeme where
  token : Token
  /-- The text of it and of all that follows. -/
  text : List Char
  /-- The number of its characters. -/
  length : Nat
  deriving Repr

/-- Whether a word may start with the character. -/
def isWordStart (c : Char) : Bool := c.isAlpha || c = '_' || 0x80 ≤ c.toNat

/-- Whether a word may go on with the character. -/
def isWordChar (c : Char) : Bool := isWordStart c || c.isDigit || c = '$'

/-- Whether the character means nothing between tokens. -/
def isSpace (c : Char) : Bool := c = ' ' || c = '\t' || c = '\n' || c = '\x0c' || c = '\r'

/-- What follows the end of a comment that goes on over lines. -/
def skipComment : List Char → List Char
  | [] => []
  | '*' :: '/' :: rest => rest
  | _ :: rest => skipComment rest

/-- What follows spaces and comments. The fuel bounds the steps. -/
def skipBetween : Nat → List Char → List Char
  | 0, text => text
  | fuel + 1, text =>
      match text with
      | '-' :: '-' :: rest => skipBetween fuel (rest.dropWhile (· ≠ '\n'))
      | '/' :: '*' :: rest => skipBetween fuel (skipComment rest)
      | c :: rest => if isSpace c then skipBetween fuel rest else text
      | [] => []

/-- The text up to a closing quote, and the number of characters up to and with it. A quote that
is written twice stands for itself. -/
def quotedText (quote : Char) : List Char → Option (List Char × Nat)
  | [] => none
  | [c] => if c = quote then some ([], 1) else none
  | c :: d :: rest =>
      if c = quote then
        if d = quote then (quotedText quote rest).map fun (text, n) => (quote :: text, n + 2)
        else some ([], 1)
      else (quotedText quote (d :: rest)).map fun (text, n) => (c :: text, n + 1)

/-- The bytes that pairs of hexadecimal digits write. -/
def byteString : List Char → Option (List UInt8)
  | [] => some []
  | high :: low :: rest => do
      let byte ← Text.hexadecimal? [high, low]
      let bytes ← byteString rest
      some (UInt8.ofNat byte :: bytes)
  | [_] => none

/-- The digits at the start of a text, the point with the digits behind it, and the exponent. -/
def numeralParts (text : List Char) : List Char × List Char × List Char :=
  let whole := text.takeWhile Char.isDigit
  let rest := text.dropWhile Char.isDigit
  let fraction :=
    match rest with
    | '.' :: rest => '.' :: rest.takeWhile Char.isDigit
    | _ => []
  let exponent :=
    match rest.drop fraction.length with
    | 'e' :: rest | 'E' :: rest =>
        let sign := rest.take 1 |>.filter fun c => c = '+' || c = '-'
        let digits := (rest.drop sign.length).takeWhile Char.isDigit
        if digits.isEmpty then [] else 'e' :: sign ++ digits
    | _ => []
  (whole, fraction, exponent)

/-- A number at the start of a text, and the number of its characters. -/
def readNumeral (text : List Char) : Token × Nat :=
  let (whole, fraction, exponent) := numeralParts text
  let length := whole.length + fraction.length + exponent.length
  if (text.drop length).head?.any isWordChar then (.unknown, length)
  else if fraction.isEmpty && exponent.isEmpty then (.natural (Text.decimalValue whole), length)
  else
    let value := Literal.float? false (whole ++ fraction ++ exponent)
    (.decimal (value.getD (.infinity false)), length)

/-- The marks of two characters. -/
def longMarks : List (List Char) :=
  [['<', '='], ['>', '='], ['<', '>'], ['!', '='], ['=', '='], ['|', '|']]

/-- The token at the start of a text, and the number of its characters. -/
def readToken (text : List Char) : Token × Nat :=
  match text with
  | [] => (.finish, 0)
  | c :: rest =>
      let quoted (make : List Char → Token) : Token × Nat :=
        match quotedText c rest with
        | some (value, n) => (make value, n + 1)
        | none => (.unknown, text.length)
      if c = '\'' then quoted fun value => .text (String.ofList value)
      else if c = '"' || c = '\x60' then quoted fun value => .name (String.ofList value)
      else if c = '[' then
        let body := rest.takeWhile (· ≠ ']')
        if body.length < rest.length then (.name (String.ofList body), body.length + 2)
        else (.unknown, text.length)
      else if (c = 'x' || c = 'X') && rest.head? = some '\'' then
        let digits := (rest.drop 1).takeWhile (· ≠ '\'')
        match byteString digits with
        | some value =>
            if digits.length + 1 < rest.length then (.bytes value, digits.length + 3)
            else (.unknown, text.length)
        | none => (.unknown, min text.length (digits.length + 3))
      else if isWordStart c then
        let word := text.takeWhile isWordChar
        (.word (String.ofList word), word.length)
      else if c.isDigit || (c = '.' && rest.head?.any Char.isDigit) then readNumeral text
      else if c = '?' then (.parameter, 1 + (rest.takeWhile Char.isDigit).length)
      else if longMarks.contains (text.take 2) then (.mark (String.ofList (text.take 2)), 2)
      else if "();,*=<>+-/%.&|~".toList.contains c then (.mark (String.singleton c), 1)
      else (.unknown, 1)

/-- The tokens of a text, the last one its end. The fuel bounds the steps. -/
def lexemes : Nat → List Char → List Lexeme
  | 0, _ => []
  | fuel + 1, text =>
      let text := skipBetween (text.length + 1) text
      let (token, length) := readToken text
      let lexeme : Lexeme := ⟨token, text, length⟩
      match token with
      | .finish | .unknown => [lexeme]
      | _ => lexeme :: lexemes fuel (text.drop length)

namespace Lexeme

/-- The token as it is written. -/
def raw (lexeme : Lexeme) : String := String.ofList (lexeme.text.take lexeme.length)

/-- The text from one token up to another one, without the space at its end. -/
def upTo (first last : Lexeme) : List Char :=
  let text := first.text.take (first.text.length - last.text.length)
  (text.reverse.dropWhile isSpace).reverse

/-- The number of bytes before the token in the text of which it is a part. -/
def offset (sql : String) (lexeme : Lexeme) : Nat :=
  sql.utf8ByteSize - (String.ofList lexeme.text).utf8ByteSize

end Lexeme

end Embedded

end MetricCatalog
