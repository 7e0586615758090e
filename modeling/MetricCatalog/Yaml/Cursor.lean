/-
# Reading places in YAML text

A cursor is the rest of a text together with its place. Lines and columns count
from zero here, because indentation is compared with columns.
-/

import MetricCatalog.Text.Digits

namespace MetricCatalog

namespace Yaml

/-- Whether the character ends a line. -/
def isBreak (c : Char) : Bool :=
  c = '\r' || c = '\n' || c = '\x85' || c = '\u2028' || c = '\u2029'

/-- Whether the character separates words in a line. -/
def isBlank (c : Char) : Bool := c = ' ' || c = '\t'

/-- Whether the character may stand in the name of an anchor, a directive or a handle. -/
def isNameChar (c : Char) : Bool := c.isAlphanum || c = '_' || c = '-'

/-- Whether a text may contain the character at all. -/
def isAllowed (c : Char) : Bool :=
  let n := c.toNat
  n = 0x9 || n = 0xA || n = 0xD || (0x20 ≤ n && n ≤ 0x7E) || n = 0x85 ||
    (0xA0 ≤ n && n ≤ 0xFFFD) || 0x10000 ≤ n

/-- The mark that may stand at the start of a line without meaning anything. -/
def byteOrderMark : Char := '\ufeff'

/-- The rest of a text and its place. -/
structure Cursor where
  /-- The rest of the text. -/
  text : List Char
  /-- The number of characters before it. -/
  index : Nat
  /-- The number of lines before it. -/
  line : Nat
  /-- The number of characters before it in its line. -/
  column : Nat
  deriving Repr

namespace Cursor

/-- The start of a text. -/
def start (text : List Char) : Cursor := ⟨text, 0, 0, 0⟩

/-- Whether the text has come to its end. -/
def atEnd (cursor : Cursor) : Bool := cursor.text.isEmpty

/-- Whether the next character is of a class. -/
def sees (cursor : Cursor) (is : Char → Bool) : Bool := cursor.text.head?.any is

/-- Whether the next character is the given one. -/
def seesChar (cursor : Cursor) (c : Char) : Bool := cursor.text.head? = some c

/-- Whether a blank, a line end or the end of the text follows some characters. -/
def spaceAfter (cursor : Cursor) (n : Nat) : Bool :=
  match cursor.text.drop n with
  | [] => true
  | c :: _ => isBlank c || isBreak c

/-- Goes over one character that does not end a line. -/
def skip (cursor : Cursor) : Cursor :=
  ⟨cursor.text.drop 1, cursor.index + 1, cursor.line, cursor.column + 1⟩

/-- Goes over some characters that do not end a line. -/
def skipBy (cursor : Cursor) (n : Nat) : Cursor :=
  ⟨cursor.text.drop n, cursor.index + n, cursor.line, cursor.column + n⟩

/-- The characters of a class that come next, and the cursor behind them. No line ends are among
them. -/
def takeWhile (cursor : Cursor) (is : Char → Bool) : List Char × Cursor :=
  let taken := cursor.text.takeWhile is
  (taken, cursor.skipBy taken.length)

/-- Goes over the characters of a class. -/
def skipWhile (cursor : Cursor) (is : Char → Bool) : Cursor := (cursor.takeWhile is).2

/-- Goes over a line end, and answers with the text it stands for: a line feed, but the two
separators of lines and paragraphs stand for themselves. -/
def takeBreak (cursor : Cursor) : List Char × Cursor :=
  let behind (taken : Nat) : Cursor :=
    ⟨cursor.text.drop taken, cursor.index + taken, cursor.line + 1, 0⟩
  match cursor.text with
  | '\r' :: '\n' :: _ => (['\n'], behind 2)
  | c :: _ =>
      if c = '\u2028' || c = '\u2029' then ([c], behind 1)
      else if isBreak c then (['\n'], behind 1)
      else ([], cursor)
  | [] => ([], cursor)

/-- Whether a line with a document marker starts here. -/
def atDocumentMarker (cursor : Cursor) : Bool :=
  cursor.column = 0 && cursor.spaceAfter 3 &&
    (cursor.text.take 3 = ['-', '-', '-'] || cursor.text.take 3 = ['.', '.', '.'])

end Cursor

end Yaml

end MetricCatalog
