/-
# Scalars in YAML text

The four ways to write a text: plain, in single or double quotes, and as a
block. Lines are folded into one another: a single line end between words is a
space, and of several the first one disappears.
-/

import MetricCatalog.Yaml.Cursor

namespace MetricCatalog

namespace Yaml

/-- How a text is written. -/
inductive ScalarStyle
  | plain | singleQuoted | doubleQuoted | literal | folded
  deriving DecidableEq, Repr

/-- The blanks and line ends between two words. -/
structure Gap where
  /-- The blanks before the first line end. -/
  blanks : List Char
  /-- Whether a line has ended. -/
  hasBreak : Bool
  /-- The first line end. -/
  first : List Char
  /-- The line ends behind the first. -/
  others : List Char
  deriving Repr

namespace Gap

/-- Nothing between two words. -/
def none : Gap := ⟨[], false, [], []⟩

/-- What a gap becomes when a word follows it. -/
def text (gap : Gap) : List Char :=
  if !gap.hasBreak then gap.blanks
  else if gap.first = ['\n'] then if gap.others.isEmpty then [' '] else gap.others
  else gap.first ++ gap.others

/-- Reads on over blanks and line ends. In a plain scalar a tab must not stand in the
indentation, which is as wide as given. The fuel bounds the steps. -/
def read (indent : Option Int) : Nat → Gap → Cursor → Option (Gap × Cursor)
  | 0, _, _ => Option.none
  | fuel + 1, gap, cursor =>
      match cursor.text.head? with
      | Option.none => some (gap, cursor)
      | some c =>
          if isBlank c then
            if gap.hasBreak then
              if c = '\t' && indent.any fun width => (cursor.column : Int) < width then Option.none
              else read indent fuel gap cursor.skip
            else read indent fuel { gap with blanks := gap.blanks ++ [c] } cursor.skip
          else if isBreak c then
            let (text, cursor) := cursor.takeBreak
            if gap.hasBreak then
              read indent fuel { gap with others := gap.others ++ text } cursor
            else read indent fuel ⟨[], true, text, []⟩ cursor
          else some (gap, cursor)

end Gap

/-- Whether the character ends a plain scalar in a flow collection. -/
def endsFlowWord (c : Char) : Bool := c = ',' || c = '[' || c = ']' || c = '{' || c = '}'

/-- What comes of looking for the end of a plain word. -/
inductive WordEnd
  /-- The word goes on. -/
  | inside
  /-- The word ends here. -/
  | ended
  /-- A colon stands where it cannot stand. -/
  | wrong

/-- Whether a plain word goes on at the cursor. -/
def wordEnd (inFlow : Bool) (cursor : Cursor) : WordEnd :=
  match cursor.text with
  | [] => .ended
  | c :: rest =>
      if isBlank c || isBreak c then .ended
      else if inFlow && c = ':' && rest.head?.any fun d => endsFlowWord d || d = '?' then .wrong
      else if c = ':' && cursor.spaceAfter 1 then .ended
      else if inFlow && endsFlowWord c then .ended
      else .inside

/-- The rest of a plain word, if no colon is wrong in it. The fuel bounds the steps. -/
def plainWord (inFlow : Bool) : Nat → Cursor → Option (List Char × Cursor)
  | 0, _ => none
  | fuel + 1, cursor =>
      match wordEnd inFlow cursor with
      | .wrong => none
      | .ended => some ([], cursor)
      | .inside => do
          let (word, behind) ← plainWord inFlow fuel cursor.skip
          some (cursor.text.take 1 ++ word, behind)

/-- A plain scalar: its text, whether a line has ended behind it, and the cursor behind it. -/
def plainScalar (inFlow : Bool) (indent : Int) :
    Nat → List Char → Gap → Cursor → Option (List Char × Bool × Cursor)
  | 0, _, _, _ => none
  | fuel + 1, text, gap, cursor =>
      if cursor.atDocumentMarker || cursor.seesChar '#' then some (text, gap.hasBreak, cursor)
      else do
        let (word, cursor) ← plainWord inFlow (cursor.text.length + 1) cursor
        let text := if word.isEmpty then text else text ++ gap.text ++ word
        let gap := if word.isEmpty then gap else Gap.none
        if cursor.sees fun c => isBlank c || isBreak c then
          let (gap, cursor) ← Gap.read (some indent) (cursor.text.length + 1) gap cursor
          if !inFlow && (cursor.column : Int) < indent then some (text, gap.hasBreak, cursor)
          else plainScalar inFlow indent fuel text gap cursor
        else some (text, gap.hasBreak, cursor)

/-- What an escape of one letter stands for. -/
def escape? (c : Char) : Option Char :=
  match c with
  | '0' => some '\x00'
  | 'a' => some '\x07'
  | 'b' => some '\x08'
  | 't' | '\t' => some '\t'
  | 'n' => some '\n'
  | 'v' => some '\x0b'
  | 'f' => some '\x0c'
  | 'r' => some '\r'
  | 'e' => some '\x1b'
  | ' ' => some ' '
  | '"' => some '"'
  | '/' => some '/'
  | '\\' => some '\\'
  | 'N' => some '\x85'
  | '_' => some '\xa0'
  | 'L' => some '\u2028'
  | 'P' => some '\u2029'
  | _ => none

/-- The number of digits of an escape that gives a code point. -/
def escapeDigits? (c : Char) : Option Nat :=
  match c with
  | 'x' => some 2
  | 'u' => some 4
  | 'U' => some 8
  | _ => none

/-- The character of an escape behind its backslash, and the number of characters it takes. -/
def readEscape (text : List Char) : Option (Char × Nat) :=
  match text with
  | [] => none
  | c :: rest =>
      match escapeDigits? c with
      | some digits => do
          let written := rest.take digits
          guard (written.length = digits)
          let value ← Text.hexadecimal? written
          guard (value < 0xD800 || (0xDFFF < value && value ≤ 0x10FFFF))
          some (Char.ofNat value, digits + 1)
      | none => (escape? c).map fun value => (value, 1)

/-- What comes next in a quoted scalar. -/
inductive QuotedPart
  /-- A character, written with some number of characters. -/
  | char (value : Char) (length : Nat)
  | closing
  /-- A line end that is taken back by a backslash. -/
  | joined
  /-- A blank or a line end. -/
  | gap
  /-- Something that cannot stand here. -/
  | wrong

/-- The next part of a quoted scalar. -/
def quotedPart (single : Bool) (text : List Char) : QuotedPart :=
  match text with
  | [] => .wrong
  | c :: rest =>
      if isBlank c || isBreak c then .gap
      else if single then
        if c = '\'' then if rest.head? = some '\'' then .char '\'' 2 else .closing
        else .char c 1
      else if c = '"' then .closing
      else if c = '\\' then
        if rest.head?.any isBreak then .joined
        else
          match readEscape rest with
          | some (value, length) => .char value (length + 1)
          | none => .wrong
      else .char c 1

/-- A scalar in quotes whose opening quote has been read, and the cursor behind it. The fuel
bounds the steps. -/
def quotedScalar (single : Bool) : Nat → List Char → Cursor → Option (List Char × Cursor)
  | 0, _, _ => none
  | fuel + 1, text, cursor =>
      if cursor.atDocumentMarker then none
      else
        match quotedPart single cursor.text with
        | .wrong => none
        | .closing => some (text.reverse, cursor.skip)
        | .char value length => quotedScalar single fuel (value :: text) (cursor.skipBy length)
        | .joined => do
            let behind := cursor.skip.takeBreak.2
            let (gap, behind) ← Gap.read none (cursor.text.length + 1) ⟨[], true, [], []⟩ behind
            quotedScalar single fuel (gap.text.reverse ++ text) behind
        | .gap => do
            let (gap, behind) ← Gap.read none (cursor.text.length + 1) Gap.none cursor
            quotedScalar single fuel (gap.text.reverse ++ text) behind

/-- What becomes of the line ends at the end of a block. -/
inductive Chomping
  | strip | clip | keep
  deriving DecidableEq, Repr

/-- The header of a block: how its end is treated, and how much deeper than its surroundings it
is indented, if that is said. -/
def blockHeader (cursor : Cursor) : Option (Chomping × Nat × Cursor) :=
  let chomping? (c : Char) : Option Chomping :=
    if c = '+' then some .keep else if c = '-' then some .strip else none
  let digit? (c : Char) : Option Nat := Text.digitValue? c
  match cursor.text with
  | c :: d :: _ =>
      match chomping? c, digit? c with
      | some chomping, _ =>
          match digit? d with
          | some 0 => none
          | some width => some (chomping, width, cursor.skipBy 2)
          | none => some (chomping, 0, cursor.skip)
      | none, some 0 => none
      | none, some width =>
          match chomping? d with
          | some chomping => some (chomping, width, cursor.skipBy 2)
          | none => some (.clip, width, cursor.skip)
      | none, none => some (.clip, 0, cursor)
  | [c] =>
      match chomping? c, digit? c with
      | some chomping, _ => some (chomping, 0, cursor.skip)
      | none, some 0 => none
      | none, some width => some (.clip, width, cursor.skip)
      | none, none => some (.clip, 0, cursor)
  | [] => some (.clip, 0, cursor)

/-- Reads on over the indentation and the empty lines of a block. An indentation of zero is not
known yet: it will be that of the deepest line, but not less than given. -/
def blockBreaks (least : Nat) :
    Nat → Nat → Nat → List Char → Cursor → Option (Nat × List Char × Cursor)
  | 0, _, _, _, _ => none
  | fuel + 1, indent, deepest, breaks, cursor =>
      let room := if indent = 0 then cursor.text.length else indent - cursor.column
      let spaces := (cursor.text.takeWhile (· = ' ')).length
      let cursor := cursor.skipBy (min room spaces)
      let deepest := max deepest cursor.column
      if (indent = 0 || cursor.column < indent) && cursor.seesChar '\t' then none
      else if cursor.sees isBreak then
        let (text, cursor) := cursor.takeBreak
        blockBreaks least fuel indent deepest (breaks ++ text) cursor
      else some (if indent = 0 then max deepest least else indent, breaks, cursor)

/-- The lines of a block. The text so far, the line end behind it and the ones behind that, and
whether the last line starts with a blank, are carried along. -/
def blockLines (isLiteral : Bool) (indent : Nat) :
    Nat → List Char → List Char → List Char → Bool → Cursor →
      Option (List Char × List Char × List Char × Cursor)
  | 0, _, _, _, _, _ => none
  | fuel + 1, text, first, others, startsBlank, cursor =>
      if cursor.column ≠ indent || cursor.atEnd then some (text, first, others, cursor)
      else do
        let blank := cursor.sees isBlank
        let joined :=
          if !isLiteral && first = ['\n'] && !startsBlank && !blank then
            if others.isEmpty then [' '] else others
          else first ++ others
        let (line, cursor) := cursor.takeWhile fun c => !isBreak c
        let (first, cursor) := cursor.takeBreak
        let (_, others, cursor) ←
          blockBreaks 1 (cursor.text.length + 1) indent 0 [] cursor
        blockLines isLiteral indent fuel (text ++ joined ++ line) first others blank cursor

/-- A block whose indicator has been read, inside some indentation. -/
def blockScalar (isLiteral : Bool) (outer : Int) (cursor : Cursor) :
    Option (List Char × Cursor) := do
  let (chomping, width, cursor) ← blockHeader cursor
  let cursor := cursor.skipWhile isBlank
  let cursor := if cursor.seesChar '#' then cursor.skipWhile (!isBreak ·) else cursor
  guard (cursor.atEnd || cursor.sees isBreak)
  let cursor := cursor.takeBreak.2
  let given := if width = 0 then 0 else (max outer 0).toNat + width
  let least := max (outer + 1).toNat 1
  let (indent, others, cursor) ←
    blockBreaks least (cursor.text.length + 1) given 0 [] cursor
  let (text, first, others, cursor) ←
    blockLines isLiteral indent (cursor.text.length + 1) [] [] others false cursor
  let tail :=
    match chomping with
    | .strip => []
    | .clip => first
    | .keep => first ++ others
  some (text ++ tail, cursor)

end Yaml

end MetricCatalog
