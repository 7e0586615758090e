/-
# Tokens of YAML text

A token is a mark of the text's structure or a piece of its content. This
module says what they are, and reads the ones that are words of their own: the
names of anchors, tags and directives. A malformed word is no word at all.
-/

import MetricCatalog.Yaml.Scalar

namespace MetricCatalog

namespace Yaml

/-- The tokens of a YAML text. -/
inductive Token
  | streamEnd
  | versionDirective (major minor : Nat)
  | tagDirective (handle uri : List Char)
  | documentStart
  | documentEnd
  | blockSequenceStart
  | blockMappingStart
  | blockEnd
  | flowSequenceStart
  | flowSequenceEnd
  | flowMappingStart
  | flowMappingEnd
  | blockEntry
  | flowEntry
  | key
  | value
  | reference (name : List Char)
  | anchor (name : List Char)
  | tag (handle suffix : List Char)
  | scalar (text : List Char) (style : ScalarStyle)
  deriving DecidableEq, Repr

/-- Whether a blank, a line end or the end of the text comes next. -/
def Cursor.atWordEnd (cursor : Cursor) : Bool := cursor.spaceAfter 0

/-- Goes over a comment, if one starts here, to the end of its line. -/
def Cursor.skipComment (cursor : Cursor) : Cursor :=
  if cursor.seesChar '#' then cursor.skipWhile (!isBreak ·) else cursor

/-- The name of an anchor or an alias behind its indicator. -/
def readAnchorName (cursor : Cursor) : Option (List Char × Cursor) := do
  let (name, cursor) := cursor.takeWhile isNameChar
  let closing : List Char := ['?', ':', ',', ']', '}', '%', '@', '\x60']
  guard (!name.isEmpty && (cursor.atWordEnd || cursor.sees (closing.contains ·)))
  some (name, cursor)

/-- Whether the character may stand in a tag as it is. Some may only where no flow collection
could end. -/
def isTagChar (verbatim : Bool) (c : Char) : Bool :=
  isNameChar c ||
    [';', '/', '?', ':', '@', '&', '=', '+', '$', '.', '!', '~', '*', '\'', '(', ')'].contains c ||
    (verbatim && (c = ',' || c = '[' || c = ']'))

/-- The number of bytes of a character whose encoding starts with the given byte. -/
def encodedWidth? (first : Nat) : Option Nat :=
  if first < 0x80 then some 1
  else if first / 0x20 = 0b110 then some 2
  else if first / 0x10 = 0b1110 then some 3
  else if first / 0x08 = 0b11110 then some 4
  else none

/-- The bytes that the given number of percent escapes write. -/
def escapedBytes : Nat → List Char → Option (List Nat)
  | 0, _ => some []
  | n + 1, '%' :: high :: low :: rest => do
      let byte ← Text.hexadecimal? [high, low]
      let bytes ← escapedBytes n rest
      some (byte :: bytes)
  | _ + 1, _ => none

/-- The character written by percent escapes, and the number of them. -/
def readEscapedChar (text : List Char) : Option (Char × Nat) := do
  let first ← (← escapedBytes 1 text).head?
  let width ← encodedWidth? first
  let bytes ← escapedBytes width text
  let character ← (String.fromUTF8? ⟨(bytes.map UInt8.ofNat).toArray⟩).bind fun s => s.toList.head?
  some (character, width)

/-- The characters of a tag, with percent escapes resolved. The fuel bounds the steps. -/
def readTagChars (verbatim : Bool) : Nat → List Char → Cursor → Option (List Char × Cursor)
  | 0, _, _ => none
  | fuel + 1, text, cursor =>
      match cursor.text with
      | [] => some (text, cursor)
      | c :: _ =>
          if c = '%' then do
            let (character, width) ← readEscapedChar cursor.text
            readTagChars verbatim fuel (text ++ [character]) (cursor.skipBy (3 * width))
          else if isTagChar verbatim c then
            readTagChars verbatim fuel (text ++ [c]) cursor.skip
          else some (text, cursor)

/-- The part of a tag behind its handle. -/
def readTagSuffix (verbatim : Bool) (cursor : Cursor) : Option (List Char × Cursor) :=
  readTagChars verbatim (cursor.text.length + 1) [] cursor

/-- The handle of a tag: an exclamation mark, and a name with a second one behind it or not. In a
directive a name has to have the second. -/
def readTagHandle (inDirective : Bool) (cursor : Cursor) : Option (List Char × Cursor) := do
  guard (cursor.seesChar '!')
  let (name, cursor) := cursor.skip.takeWhile isNameChar
  if cursor.seesChar '!' then some ('!' :: name ++ ['!'], cursor.skip)
  else do
    guard (!inDirective || name.isEmpty)
    some ('!' :: name, cursor)

/-- A tag, at its exclamation mark. The tag that is only that mark has no handle. -/
def readTag (inFlow : Bool) (cursor : Cursor) : Option (Token × Cursor) := do
  let (tag, cursor) ← (do
    if cursor.text.drop 1 |>.head?.any (· = '<') then
      let (suffix, cursor) ← readTagSuffix true (cursor.skipBy 2)
      guard (!suffix.isEmpty && cursor.seesChar '>')
      some (Token.tag [] suffix, cursor.skip)
    else
      let (handle, cursor) ← readTagHandle false cursor
      let (suffix, cursor) ← readTagSuffix false cursor
      if 2 ≤ handle.length && handle.getLast? = some '!' then do
        guard !suffix.isEmpty
        some (Token.tag handle suffix, cursor)
      else
        let suffix := handle.drop 1 ++ suffix
        some (if suffix.isEmpty then Token.tag [] ['!'] else Token.tag ['!'] suffix, cursor)
    : Option (Token × Cursor))
  guard ((inFlow && cursor.seesChar ',') || cursor.atWordEnd)
  some (tag, cursor)

/-- A number in the directive for the version, of at most nine digits. -/
def readVersionNumber (cursor : Cursor) : Option (Nat × Cursor) := do
  let (digits, cursor) := cursor.takeWhile Text.isDigit
  guard (digits.length ≤ 9)
  let number ← Text.decimal? digits
  some (number, cursor)

/-- The version behind the name of its directive. -/
def readVersion (cursor : Cursor) : Option (Token × Cursor) := do
  let (major, cursor) ← readVersionNumber (cursor.skipWhile isBlank)
  guard (cursor.seesChar '.')
  let (minor, cursor) ← readVersionNumber cursor.skip
  some (.versionDirective major minor, cursor)

/-- The handle and what it stands for behind the name of their directive. -/
def readTagDirective (cursor : Cursor) : Option (Token × Cursor) := do
  let (handle, cursor) ← readTagHandle true (cursor.skipWhile isBlank)
  guard (cursor.sees isBlank)
  let (uri, cursor) ← readTagSuffix true (cursor.skipWhile isBlank)
  guard (!uri.isEmpty && cursor.atWordEnd)
  some (.tagDirective handle uri, cursor)

/-- A directive behind its indicator, with the rest of its line. -/
def readDirective (cursor : Cursor) : Option (Token × Cursor) := do
  let (name, cursor) := cursor.takeWhile isNameChar
  guard cursor.atWordEnd
  let (directive, cursor) ←
    if name = "YAML".toList then readVersion cursor
    else if name = "TAG".toList then readTagDirective cursor
    else none
  let cursor := (cursor.skipWhile isBlank).skipComment
  guard (cursor.atEnd || cursor.sees isBreak)
  some (directive, cursor.takeBreak.2)

end Yaml

end MetricCatalog
