/-
# Tokens of statements

The lexer finds the ends of tokens, and of each token it knows only what matters
for cutting a text into statements: whether it is a semicolon, whether it is
space or a comment, or whether it is anything else. Strings, quoted identifiers
and comments can hide a semicolon, so all their forms are known here.

Every rule answers with the number of characters it takes, so that a token is a
piece of the text by construction.
-/

import MetricCatalog.Text.Blank
import MetricCatalog.Text.Digits
import MetricCatalog.Text.Letter
import MetricCatalog.Text.Location

namespace MetricCatalog

namespace Sql

open Text

/-- What a token is, as far as cutting is concerned. -/
inductive TokenKind
  /-- The sign between statements. -/
  | semicolon
  /-- White space or a comment. -/
  | space
  | other
  deriving DecidableEq, Repr

/-- Why a text cannot be cut into tokens. -/
inductive LexCause
  /-- A comment that is not closed. -/
  | openComment
  /-- A string that is not closed. -/
  | openString
  /-- A quoted identifier that is not closed. -/
  | openIdentifier (quote : Char)
  /-- A string with escapes that is not closed or has a wrong escape. -/
  | badEscapedString
  /-- A character among the digits of a code point. -/
  | badHexDigit (c : Char)
  /-- The text ends among the digits of a code point. -/
  | missingHexDigit
  /-- A number that is no code point of a character. -/
  | badCodePoint (value : Nat)
  /-- A string with code points that is not closed. -/
  | openUnicodeString
  /-- A string between double dollars that is not closed. -/
  | openDollarString
  /-- A string between tags that is not closed. -/
  | openTaggedString
  deriving DecidableEq, Repr

/-- The text of the complaint. -/
def LexCause.message : LexCause → String
  | openComment => "Unexpected EOF while in a multi-line comment"
  | openString => "Unterminated string literal"
  | openIdentifier quote => s!"Expected close delimiter '{quote}' before EOF."
  | badEscapedString => "Unterminated encoded string literal"
  | badHexDigit c => s!"Invalid hex digit in escaped unicode string: {c}"
  | missingHexDigit => "Unexpected EOF while parsing hex digit in escaped unicode string."
  | badCodePoint value =>
      "Invalid unicode character: " ++ String.ofList (Nat.toDigits 16 value)
  | openUnicodeString => "Unterminated unicode encoded string literal"
  | openDollarString => "Unterminated dollar-quoted string"
  | openTaggedString => "Unterminated dollar-quoted, expected $"

/-- A fault in a token, at some distance from the start of the token. -/
structure LexFault where
  cause : LexCause
  /-- The number of characters between the start of the token and the place of the fault. -/
  distance : Nat
  deriving DecidableEq, Repr

/-- The number of characters a rule takes, or the fault it finds. -/
abbrev Scan := Except LexFault Nat

/-- Reports a missing end as a fault. -/
def orFault (length : Option Nat) (cause : LexCause) (distance : Nat) : Scan :=
  match length with
  | some n => .ok n
  | none => .error ⟨cause, distance⟩

/-- The length of a text up to its closing quote, behind the opening one. A doubled quote does
not close it. -/
def quotedLength (quote : Char) : List Char → Option Nat
  | [] => none
  | [c] => if c = quote then some 1 else none
  | c :: d :: rest =>
      if c = quote then
        if d = quote then (quotedLength quote rest).map (· + 2) else some 1
      else (quotedLength quote (d :: rest)).map (· + 1)

/-- The length of a text up to three quotes in a row, of which some have been seen. -/
def tripleLength (quote : Char) : Nat → List Char → Option Nat
  | _, [] => none
  | seen, c :: rest =>
      if c = quote then
        if seen = 2 then some 1 else (tripleLength quote (seen + 1) rest).map (· + 1)
      else (tripleLength quote 0 rest).map (· + 1)

/-- The length of a comment up to its end, behind its opening. Comments nest, and pairs of
signs may overlap. -/
def commentLength : Nat → Char → List Char → Option Nat
  | _, _, [] => none
  | nested, last, c :: rest =>
      if last = '/' && c = '*' then (commentLength (nested + 1) c rest).map (· + 1)
      else if last = '*' && c = '/' then
        if nested ≤ 1 then some 1 else (commentLength (nested - 1) c rest).map (· + 1)
      else (commentLength nested c rest).map (· + 1)

/-- Whether a number is the code point of a character. -/
def isCodePoint (n : Nat) : Bool := n < 0xD800 || (0xDFFF < n && n < 0x110000)

/-- Whether a number can stand in a text with escapes: the zero cannot. -/
def isEscapeValue (n : Nat) : Bool := n ≠ 0 && isCodePoint n

/-- The number that hexadecimal digits write, with a plus in front or not. -/
def signedHex? (digits : List Char) : Option Nat :=
  match digits with
  | '+' :: rest => hexadecimal? rest
  | _ => hexadecimal? digits

/-- The length of an escape that gives a code point by a fixed number of digits. -/
def codePointEscape? (digits : Nat) (text : List Char) : Option Nat :=
  let written := text.take digits
  if written.length < digits then none
  else
    match signedHex? written with
    | some n => if isEscapeValue n then some (digits + 1) else none
    | none => none

/-- The length of an escape that gives a byte; of the byte only the ASCII half is allowed. -/
def byteEscape? (base length : Nat) (digits : List Nat) : Option Nat :=
  let value := appendDigits base 0 digits % 256
  if value ≠ 0 && value ≤ 127 then some length else none

/-- The value of an octal digit. -/
def octalValue? (c : Char) : Option Nat :=
  match digitValue? c with
  | some n => if n < 8 then some n else none
  | none => none

/-- The values of the digits a text starts with, up to some number of them. -/
def digitsUpTo (value? : Char → Option Nat) : Nat → List Char → List Nat
  | 0, _ => []
  | _, [] => []
  | limit + 1, c :: rest =>
      match value? c with
      | some n => n :: digitsUpTo value? limit rest
      | none => []

/-- The length of an escape behind its backslash; `none` if it is wrong or cut short. -/
def escapeLength? : List Char → Option Nat
  | [] => none
  | 'u' :: rest => codePointEscape? 4 rest
  | 'U' :: rest => codePointEscape? 8 rest
  | 'x' :: rest =>
      match digitsUpTo hexValue? 2 rest with
      | [] => some 1
      | digits => byteEscape? 16 (digits.length + 1) digits
  | '\x00' :: _ => none
  | c :: rest =>
      match octalValue? c with
      | some n =>
          let digits := n :: digitsUpTo octalValue? 2 rest
          byteEscape? 8 digits.length digits
      | none => some 1

/-- The length of a string with escapes up to its closing quote, behind the opening one. -/
def escapedLength : List Char → Option Nat
  | [] => none
  | c :: rest =>
      if c = '\'' then
        match rest with
        | '\'' :: more => (escapedLength more).map (· + 2)
        | _ => some 1
      else if c = '\\' then
        match escapeLength? rest with
        | some n => (escapedLength (rest.drop n)).map (· + (n + 1))
        | none => none
      else (escapedLength rest).map (· + 1)
termination_by text => text.length
decreasing_by all_goals (simp_all; try omega)

/-- Reads the digits of a code point, of which some are still to come; the distance is that of
the first of these. -/
def scanCodePoint (distance : Nat) : Nat → Nat → List Char → Scan
  | 0, value, _ =>
      if isCodePoint value then .ok distance else .error ⟨.badCodePoint value, distance⟩
  | _ + 1, _, [] => .error ⟨.missingHexDigit, distance⟩
  | missing + 1, value, c :: rest =>
      match hexValue? c with
      | some digit => scanCodePoint (distance + 1) missing (value * 16 + digit) rest
      | none => .error ⟨.badHexDigit c, distance + 1⟩

/-- The distance behind an escape of a string with code points; the text and the distance are
those behind its backslash. -/
def scanUnicodeEscape (distance : Nat) : List Char → Scan
  | '\\' :: _ => .ok (distance + 1)
  | '+' :: rest => scanCodePoint (distance + 1) 6 0 rest
  | rest => scanCodePoint distance 4 0 rest

/-- The distance behind the closing quote of a string with code points. -/
def scanUnicodeString (distance : Nat) : List Char → Scan
  | [] => .error ⟨.openUnicodeString, distance⟩
  | c :: rest =>
      if c = '\'' then
        match rest with
        | '\'' :: more => scanUnicodeString (distance + 2) more
        | _ => .ok (distance + 1)
      else if c = '\\' then
        match scanUnicodeEscape (distance + 1) rest with
        | .ok next => scanUnicodeString next (rest.drop (next - (distance + 1)))
        | .error fault => .error fault
      else scanUnicodeString (distance + 1) rest
termination_by text => text.length
decreasing_by all_goals (simp_all; try omega)

/-- The length of a text up to the first two dollars in a row. -/
def dollarLength : List Char → Option Nat
  | [] | [_] => none
  | c :: d :: rest =>
      if c = '$' && d = '$' then some 2 else (dollarLength (d :: rest)).map (· + 1)

/-- What comes of comparing a text with a tag: the number of characters that were taken for it,
up to and with the first that differs. -/
inductive TagMatch
  /-- The whole tag is there. -/
  | whole (length : Nat)
  /-- The text differs from the tag. -/
  | differs (length : Nat)
  /-- The text ends inside the tag. -/
  | ended
  deriving DecidableEq, Repr

/-- Compares a text with a tag. -/
def matchTag : List Char → List Char → TagMatch
  | [], _ => .whole 0
  | _ :: _, [] => .ended
  | t :: tag, c :: rest =>
      if t = c then
        match matchTag tag rest with
        | .whole n => .whole (n + 1)
        | .differs n => .differs (n + 1)
        | .ended => .ended
      else .differs 1

/-- The length of a text up to its tag between two dollars. What was taken for a tag and was
none is passed over. -/
def taggedLength (tag : List Char) : List Char → Option Nat
  | [] => none
  | c :: rest =>
      if c = '$' then
        match matchTag tag rest with
        | .ended => none
        | .differs n => (taggedLength tag (rest.drop n)).map (· + (n + 1))
        | .whole n =>
            if (rest.drop n).head? = some '$' then some (n + 2)
            else (taggedLength tag (rest.drop n)).map (· + (n + 1))
      else (taggedLength tag rest).map (· + 1)
termination_by text => text.length
decreasing_by all_goals (simp_all; try omega)

/-- Whether a word may start with the character. -/
def isWordStart (c : Char) : Bool := isLetter c || c = '_' || c = '#' || c = '@'

/-- Whether a word may go on with the character. -/
def isWordPart (c : Char) : Bool :=
  isLetter c || isDigit c || c = '@' || c = '$' || c = '#' || c = '_'

/-- The number of characters of a class that a text starts with. -/
def runLength (isPart : Char → Bool) (text : List Char) : Nat := (text.takeWhile isPart).length

/-- The rest of a word, behind some characters of it. -/
def scanWord (before : Nat) (text : List Char) : Scan :=
  .ok (before + runLength isWordPart text)

/-- A string in quotes, some characters behind the start of its token. -/
def scanString (quote : Char) (before : Nat) (text : List Char) : Scan :=
  orFault ((quotedLength quote text).map (· + (before + 1))) .openString before

/-- A raw string behind its letter: one quote opens a plain string, two are an empty one, and
three open one that ends at the next three. -/
def scanRawString (quote : Char) (text : List Char) : Scan :=
  match min 3 (runLength (· = quote) text) with
  | 2 => .ok 3
  | 3 => orFault ((tripleLength quote 0 (text.drop 3)).map (· + 4)) .openString 4
  | _ => orFault ((quotedLength quote (text.drop 1)).map (· + 2)) .openString 2

/-- The exponent of a number: a letter, a sign or none, and at least one digit. -/
def exponentLength (text : List Char) : Nat :=
  let digits (before : Nat) (rest : List Char) : Nat :=
    let n := runLength isDigit rest
    if n = 0 then 0 else before + n
  match text with
  | 'e' :: '+' :: rest | 'E' :: '+' :: rest => digits 2 rest
  | 'e' :: '-' :: rest | 'E' :: '-' :: rest => digits 2 rest
  | 'e' :: rest | 'E' :: rest => digits 1 rest
  | _ => 0

/-- A number, or a lone point. -/
def numberLength (text : List Char) : Nat :=
  let whole := runLength isDigit text
  let rest := text.drop whole
  if text.take whole = ['0'] && rest.head? = some 'x' then
    2 + runLength isHexDigit (rest.drop 1)
  else
    let point := if rest.head? = some '.' then 1 else 0
    let fraction := runLength isDigit (rest.drop point)
    let length := whole + point + fraction
    if whole = 0 && fraction = 0 then length
    else
      let length := length + exponentLength (text.drop length)
      if (text.drop length).head? = some 'L' then length + 1 else length

/-- A token that starts with a dollar: a string between double dollars or tags, or a
placeholder. The text is that behind the dollar. -/
def scanDollar : List Char → Scan
  | '$' :: rest => orFault ((dollarLength rest).map (· + 2)) .openDollarString (rest.length + 2)
  | text =>
      let tag := text.takeWhile fun c => isLetterOrNumber c || c = '_'
      match text.drop tag.length with
      | '$' :: rest =>
          let before := tag.length + 2
          orFault ((taggedLength tag rest).map (· + before)) .openTaggedString
            (before + rest.length)
      | _ => .ok (tag.length + 1)

/-- A token that starts with an at sign. With most characters behind it, it makes a word. -/
def scanAt : List Char → Scan
  | '>' :: _ | '?' :: _ => .ok 2
  | '@' :: ' ' :: _ => .ok 2
  | '@' :: _ :: rest => scanWord 3 rest
  | ['@'] => .ok 2
  | ' ' :: _ => .ok 1
  | _ :: rest => scanWord 2 rest
  | [] => .ok 1

/-- A token that starts with a hash sign. With most characters behind it, it makes a word. -/
def scanHash : List Char → Scan
  | '-' :: _ => .ok 2
  | '>' :: '>' :: _ => .ok 3
  | '>' :: _ => .ok 2
  | ' ' :: _ => .ok 1
  | _ :: rest => scanWord 2 rest
  | [] => .ok 1

/-- The operators of more than one sign; of two that fit the longer one is the token. -/
def longOperators : List (List Char) :=
  ["->>", "->", "//", "||/", "||", "|/", "=>", "==", "!=", "!!", "!~~*", "!~~", "!~*", "!~", "<=>",
    "<=", "<>", "<<", "<@", ">=", ">>", "::", ":=", "&&", "^@", "~~*", "~~", "~*"].map
    String.toList

/-- The length of the operator a text starts with; any other character stands alone. -/
def operatorLength (text : List Char) : Nat :=
  match longOperators.find? fun operator => operator.isPrefixOf text with
  | some operator => operator.length
  | none => 1

/-- A token that starts with a letter which may stand before a string. -/
def scanLetter (c : Char) (rest : List Char) : Scan :=
  match c.toLower, rest with
  | 'b', '\'' :: body | 'n', '\'' :: body | 'x', '\'' :: body => scanString '\'' 1 body
  | 'b', '"' :: body => scanString '"' 1 body
  | 'r', '\'' :: _ => scanRawString '\'' rest
  | 'r', '"' :: _ => scanRawString '"' rest
  | 'e', '\'' :: body => orFault ((escapedLength body).map (· + 2)) .badEscapedString 0
  | 'u', '&' :: '\'' :: body => scanUnicodeString 3 body
  | _, _ => scanWord 1 rest

/-- The first token of a text that is not empty: its kind and its length. -/
def scanToken (c : Char) (rest : List Char) : Except LexFault (TokenKind × Nat) :=
  let other (scan : Scan) : Except LexFault (TokenKind × Nat) :=
    scan.map fun length => (.other, length)
  match c, rest with
  | ';', _ => .ok (.semicolon, 1)
  | '\r', '\n' :: _ => .ok (.space, 2)
  | '-', '-' :: more =>
      let length := 2 + runLength (· ≠ '\n') more
      .ok (.space, if (rest.drop (length - 1)).isEmpty then length else length + 1)
  | '/', '*' :: more =>
      (orFault ((commentLength 1 ' ' more).map (· + 2)) .openComment (more.length + 2)).map
        fun length => (.space, length)
  | '\'', _ => other (scanString '\'' 0 rest)
  | '"', _ => other (orFault ((quotedLength '"' rest).map (· + 1)) (.openIdentifier '"') 0)
  | '\x60', _ =>
      other (orFault ((quotedLength '\x60' rest).map (· + 1)) (.openIdentifier '\x60') 0)
  | '@', _ => other (scanAt rest)
  | '#', _ => other (scanHash rest)
  | '$', _ => other (scanDollar rest)
  | '?', _ => other (.ok (1 + runLength isNumber rest))
  | c, rest =>
      if isDigit c || c = '.' then .ok (.other, numberLength (c :: rest))
      else if isWordStart c then other (scanLetter c rest)
      else if isBlank c then .ok (.space, 1)
      else .ok (.other, operatorLength (c :: rest))

/-- A token at its place in a text. -/
structure Token where
  kind : TokenKind
  text : List Char
  start : Location
  /-- Where the text behind it starts. -/
  stop : Location
  deriving DecidableEq, Repr

/-- Why and where a text cannot be cut into tokens. -/
structure LexError where
  cause : LexCause
  location : Location
  deriving DecidableEq, Repr

/-- The text of the complaint. -/
def LexError.message (error : LexError) : String :=
  s!"{error.cause.message} at Line: {error.location.line}, Column: {error.location.column}"

/-- The tokens of a text that starts at some place. -/
def tokensFrom (start : Location) : List Char → Except LexError (List Token)
  | [] => .ok []
  | c :: rest =>
      match scanToken c rest with
      | .error fault =>
          .error ⟨fault.cause, start.advanceBy ((c :: rest).take fault.distance)⟩
      | .ok (kind, length) =>
          let text := c :: rest.take (length - 1)
          let stop := start.advanceBy text
          match tokensFrom stop (rest.drop (length - 1)) with
          | .ok tokens => .ok (⟨kind, text, start, stop⟩ :: tokens)
          | .error error => .error error
termination_by text => text.length
decreasing_by simp only [List.length_drop, List.length_cons]; omega

/-- The tokens of a text. -/
def tokens (text : List Char) : Except LexError (List Token) := tokensFrom .start text

end Sql

end MetricCatalog
