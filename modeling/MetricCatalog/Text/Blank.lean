/-
# White space

The White_Space property, and trimming by it. The class is wider than the
ASCII one: it holds the line and paragraph separators, the no-break spaces and
the next-line control, and it does not hold the information separators or the
zero-width space.
-/

import MetricCatalog.Text.CharRange

namespace MetricCatalog.Text

/-- The code points with the White_Space property. -/
def blankTable : CharRanges where
  ranges := [
    (0x9, 0xD), (0x20, 0x20), (0x85, 0x85), (0xA0, 0xA0), (0x1680, 0x1680), (0x2000, 0x200A),
    (0x2028, 0x2029), (0x202F, 0x202F), (0x205F, 0x205F), (0x3000, 0x3000)
  ]

/-- Whether the character is white space. -/
def isBlank (c : Char) : Bool := blankTable.contains c

/-- The text without the white space it starts with. -/
def trimStart (text : List Char) : List Char := text.dropWhile isBlank

/-- The text without the white space it ends with. -/
def trimEnd (text : List Char) : List Char :=
  (text.reverse.dropWhile isBlank).reverse

/-- The text without the white space at its ends. -/
def trim (text : List Char) : List Char := trimEnd (trimStart text)

/-- Trimming of a string by the White_Space property. -/
def trimmed (text : String) : String := String.ofList (trim text.toList)

end MetricCatalog.Text
