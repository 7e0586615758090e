/-
# Places in a text

A place is named by its line and its column, both counted from one. Only a line
feed starts a new line, and every other character is one column wide, whatever
the number of its bytes. A table of the starts of lines takes places back to
offsets in bytes.
-/

namespace MetricCatalog

namespace Text

/-- A place in a text. -/
structure Location where
  /-- The line, the first being one. -/
  line : Nat
  /-- The column, the first being one. -/
  column : Nat
  deriving DecidableEq, Repr, Inhabited

namespace Location

/-- The place where a text begins. -/
def start : Location := ⟨1, 1⟩

/-- The place behind a character. -/
def advance (location : Location) (c : Char) : Location :=
  if c = '\n' then ⟨location.line + 1, 1⟩ else ⟨location.line, location.column + 1⟩

/-- The place behind a piece of text. -/
def advanceBy (location : Location) (text : List Char) : Location :=
  text.foldl advance location

end Location

/-- The number of bytes of a text in its encoded form. -/
def byteLength (text : List Char) : Nat := text.foldr (fun c n => c.utf8Size + n) 0

/-- The text behind its first bytes. -/
def dropBytes : Nat → List Char → List Char
  | 0, text => text
  | _, [] => []
  | n, c :: rest => dropBytes (n - c.utf8Size) rest
termination_by _ text => text.length

/-- The first bytes of a text. -/
def takeBytes : Nat → List Char → List Char
  | 0, _ => []
  | _, [] => []
  | n, c :: rest => c :: takeBytes (n - c.utf8Size) rest
termination_by _ text => text.length

/-- The offsets of the starts of the lines of a text, given that of the text itself. -/
def lineStartsFrom (offset : Nat) : List Char → List Nat
  | [] => []
  | c :: rest =>
      let next := offset + c.utf8Size
      if c = '\n' then next :: lineStartsFrom next rest else lineStartsFrom next rest

/-- The offsets, in bytes, at which the lines of a text start. -/
def lineStarts (text : List Char) : List Nat := 0 :: lineStartsFrom 0 text

/-- The offset of a place in a text, given where its lines start. A place that the text does not
have is taken for the end of the text. -/
def offsetOf (starts : List Nat) (text : List Char) (location : Location) : Nat :=
  match location.line, starts[location.line - 1]? with
  | 0, _ | _, none => byteLength text
  | _, some start =>
      let column := location.column - 1
      let line := dropBytes start text
      if column < line.length then start + byteLength (line.take column) else byteLength text

/-- The text between two offsets. -/
def sliceBytes (text : List Char) (start stop : Nat) : List Char :=
  takeBytes (stop - start) (dropBytes start text)

end Text

end MetricCatalog
