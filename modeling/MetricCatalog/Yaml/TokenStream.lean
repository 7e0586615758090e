/-
# The tokens of a YAML text in order

Whether a word is the key of a mapping shows only at the colon behind it. So a
token that may begin a key is held back, with all behind it, until the colon
comes or can no longer come: it has to come on the same line, and within 1024
characters. Where the key turns out to be one, its mark is put before it, and
where it opens a mapping by its indentation, that mark as well.

The tokens of a malformed text are those up to the place where it is malformed,
without any that are held back there.
-/

import MetricCatalog.Yaml.Token

namespace MetricCatalog

namespace Yaml

/-- A token that may begin a key. -/
structure PendingKey where
  /-- The number of tokens of the text before it. -/
  number : Nat
  /-- The place where it starts. -/
  index : Nat
  line : Nat
  column : Nat
  /-- Whether nothing but a key may stand at its place. -/
  isRequired : Bool
  deriving Repr

/-- The number of characters within which the colon of a key has to come. -/
def keyReach : Nat := 1024

namespace PendingKey

/-- Whether its colon can no longer come, seen from a later place. -/
def isStale (key : PendingKey) (cursor : Cursor) : Bool :=
  key.line < cursor.line || key.index + keyReach < cursor.index

end PendingKey

/-- What is known in the middle of a text. -/
structure Tokenizer where
  /-- The rest of the text. -/
  cursor : Cursor
  /-- The column of the innermost block collection; below zero outside of all. -/
  indent : Int
  /-- The columns of the collections around it, innermost first. -/
  outerIndents : List Int
  /-- Whether a key may start here. -/
  keyAllowed : Bool
  /-- What may still become a key in the innermost flow collection. -/
  pending : Option PendingKey
  /-- The same for the collections around it, innermost first. -/
  outerPending : List (Option PendingKey)
  /-- The tokens that are held back. -/
  queue : List Token
  /-- The number of tokens before those. -/
  delivered : Nat
  deriving Repr

namespace Tokenizer

/-- The start of a text. -/
def start (text : List Char) : Tokenizer :=
  { cursor := .start text, indent := -1, outerIndents := [], keyAllowed := true, pending := none,
    outerPending := [], queue := [], delivered := 0 }

/-- Whether the place is inside a flow collection. -/
def inFlow (state : Tokenizer) : Bool := !state.outerPending.isEmpty

/-- Adds a token. -/
def push (state : Tokenizer) (token : Token) : Tokenizer :=
  { state with queue := state.queue ++ [token] }

/-- Adds a token that ends at a later place. -/
def pushUpTo (state : Tokenizer) (token : Token) (cursor : Cursor) : Tokenizer :=
  { state.push token with cursor := cursor }

/-- Adds a token that is written with some characters. -/
def pushMark (state : Tokenizer) (token : Token) (length : Nat) : Tokenizer :=
  state.pushUpTo token (state.cursor.skipBy length)

/-- Puts a token before the one of the given number. -/
def insertAt (state : Tokenizer) (number : Nat) (token : Token) : Tokenizer :=
  { state with queue := state.queue.insertIdx (number - state.delivered) token }

/-- Gives up what can no longer become a key, unless it has to. -/
def dropStale (state : Tokenizer) : Option Tokenizer := do
  let keep (key : Option PendingKey) : Option (Option PendingKey) :=
    match key with
    | none => some none
    | some k => if k.isStale state.cursor then if k.isRequired then none else some none else some key
  let pending ← keep state.pending
  let outerPending ← state.outerPending.mapM keep
  some { state with pending, outerPending }

/-- Settles that the last candidate in this collection is no key. -/
def dropPending (state : Tokenizer) : Option Tokenizer := do
  guard (!state.pending.any (·.isRequired))
  some { state with pending := none }

/-- Notes that the next token may begin a key. -/
def notePending (state : Tokenizer) : Option Tokenizer :=
  if state.keyAllowed then do
    let state ← state.dropPending
    let place := state.cursor
    let isRequired := !state.inFlow && state.indent = (place.column : Int)
    let number := state.delivered + state.queue.length
    some { state with
      pending := some ⟨number, place.index, place.line, place.column, isRequired⟩ }
  else some state

/-- Opens a block collection at a column deeper than those that are open. Its mark goes before the
token of the given number, or to the end. -/
def openBlock (state : Tokenizer) (column : Nat) (number : Option Nat) (mark : Token) :
    Tokenizer :=
  if state.inFlow || (column : Int) ≤ state.indent then state
  else
    let state :=
      { state with indent := column, outerIndents := state.indent :: state.outerIndents }
    match number with
    | some number => state.insertAt number mark
    | none => state.push mark

/-- Closes the block collections that are deeper than a column. -/
def closeBlocks (state : Tokenizer) (column : Int) : Tokenizer :=
  if state.inFlow then state else go state state.outerIndents
where
  /-- Closes blocks as long as the innermost is deeper. -/
  go (state : Tokenizer) : List Int → Tokenizer
    | [] => state
    | outer :: rest =>
        if column < state.indent then
          go ({ state with indent := outer, outerIndents := rest }.push .blockEnd) rest
        else state

/-- Goes over blanks, comments and line ends. A tab may stand for a blank only where no key could
start. The fuel bounds the lines. -/
def skipToToken (state : Tokenizer) : Nat → Tokenizer
  | 0 => state
  | fuel + 1 =>
      let cursor := state.cursor
      let cursor :=
        if cursor.column = 0 && cursor.seesChar byteOrderMark then cursor.skip else cursor
      let tabs := state.inFlow || !state.keyAllowed
      let cursor := (cursor.skipWhile fun c => c = ' ' || (tabs && c = '\t')).skipComment
      if cursor.sees isBreak then
        skipToToken { state with
          cursor := cursor.takeBreak.2, keyAllowed := state.keyAllowed || !state.inFlow } fuel
      else { state with cursor := cursor }

/-- The end of the text. It counts as a new line. -/
def atStreamEnd (state : Tokenizer) : Option Tokenizer := do
  let cursor := state.cursor
  let cursor :=
    if cursor.column = 0 then cursor else { cursor with line := cursor.line + 1, column := 0 }
  let state := { state with cursor := cursor }.closeBlocks (-1)
  let state ← state.dropPending
  some ({ state with keyAllowed := false }.push .streamEnd)

/-- A directive, at its indicator. -/
def atDirective (state : Tokenizer) : Option Tokenizer := do
  let state ← (state.closeBlocks (-1)).dropPending
  let (directive, cursor) ← readDirective state.cursor.skip
  some ({ state with keyAllowed := false }.pushUpTo directive cursor)

/-- A marker of a document's start or end. -/
def atDocumentMarker (state : Tokenizer) (marker : Token) : Option Tokenizer := do
  let state ← (state.closeBlocks (-1)).dropPending
  some ({ state with keyAllowed := false }.pushMark marker 3)

/-- The opening bracket of a flow collection. -/
def atFlowStart (state : Tokenizer) (mark : Token) : Option Tokenizer := do
  let state ← state.notePending
  let state :=
    { state with
      pending := none, outerPending := state.pending :: state.outerPending, keyAllowed := true }
  some (state.pushMark mark 1)

/-- The closing bracket of a flow collection. -/
def atFlowEnd (state : Tokenizer) (mark : Token) : Option Tokenizer := do
  let state ← state.dropPending
  let state :=
    match state.outerPending with
    | [] => state
    | pending :: outer => { state with pending := pending, outerPending := outer }
  some ({ state with keyAllowed := false }.pushMark mark 1)

/-- The comma between the entries of a flow collection. -/
def atFlowEntry (state : Tokenizer) : Option Tokenizer := do
  let state ← state.dropPending
  some ({ state with keyAllowed := true }.pushMark .flowEntry 1)

/-- The dash before an entry of a block sequence. -/
def atBlockEntry (state : Tokenizer) : Option Tokenizer := do
  guard (state.inFlow || state.keyAllowed)
  let state := state.openBlock state.cursor.column none .blockSequenceStart
  let state ← state.dropPending
  some ({ state with keyAllowed := true }.pushMark .blockEntry 1)

/-- The question mark before a key. -/
def atKey (state : Tokenizer) : Option Tokenizer := do
  guard (state.inFlow || state.keyAllowed)
  let state := state.openBlock state.cursor.column none .blockMappingStart
  let state ← state.dropPending
  some ({ state with keyAllowed := !state.inFlow }.pushMark .key 1)

/-- The colon before a value. What was held back as a key is one now. -/
def atValue (state : Tokenizer) : Option Tokenizer :=
  match state.pending with
  | some key =>
      let state := state.insertAt key.number .key
      let state := state.openBlock key.column (some key.number) .blockMappingStart
      some ({ state with pending := none, keyAllowed := false }.pushMark .value 1)
  | none => do
      guard (state.inFlow || state.keyAllowed)
      let state := state.openBlock state.cursor.column none .blockMappingStart
      some ({ state with keyAllowed := !state.inFlow }.pushMark .value 1)

/-- An anchor or an alias, at its indicator. -/
def atAnchor (state : Tokenizer) (token : List Char → Token) : Option Tokenizer := do
  let state ← state.notePending
  let (name, cursor) ← readAnchorName state.cursor.skip
  some ({ state with keyAllowed := false }.pushUpTo (token name) cursor)

/-- A tag, at its indicator. -/
def atTag (state : Tokenizer) : Option Tokenizer := do
  let state ← state.notePending
  let (tag, cursor) ← readTag state.inFlow state.cursor
  some ({ state with keyAllowed := false }.pushUpTo tag cursor)

/-- A block scalar, at its indicator. -/
def atBlockScalar (state : Tokenizer) (isLiteral : Bool) : Option Tokenizer := do
  let state ← state.dropPending
  let (text, cursor) ← blockScalar isLiteral state.indent state.cursor.skip
  let style := if isLiteral then ScalarStyle.literal else .folded
  some ({ state with keyAllowed := true }.pushUpTo (.scalar text style) cursor)

/-- A scalar in quotes. -/
def atQuoted (state : Tokenizer) (single : Bool) : Option Tokenizer := do
  let state ← state.notePending
  let (text, cursor) ← quotedScalar single (state.cursor.text.length + 1) [] state.cursor.skip
  let style := if single then ScalarStyle.singleQuoted else .doubleQuoted
  some ({ state with keyAllowed := false }.pushUpTo (.scalar text style) cursor)

/-- A scalar without quotes. Where a line has ended behind it a key may start. -/
def atPlain (state : Tokenizer) : Option Tokenizer := do
  let state ← state.notePending
  let (text, lineEnded, cursor) ←
    plainScalar state.inFlow (state.indent + 1) (state.cursor.text.length + 1) [] Gap.none
      state.cursor
  some ({ state with keyAllowed := lineEnded }.pushUpTo (.scalar text .plain) cursor)

/-- Whether the character means something at the start of a token. -/
def isIndicator (c : Char) : Bool :=
  ['-', '?', ':', ',', '[', ']', '{', '}', '#', '&', '*', '!', '|', '>', '\'', '"', '%', '@',
    '\x60'].contains c

/-- Whether a plain scalar starts with the character at the cursor. -/
def startsPlain (state : Tokenizer) (c : Char) : Bool :=
  let next := state.cursor.text[1]?
  (!isIndicator c && !isBlank c && !isBreak c) ||
    (c = '-' && !next.any isBlank) ||
    (!state.inFlow && (c = '?' || c = ':') && !state.cursor.spaceAfter 1)

/-- Reads the token at the cursor. -/
def readToken (state : Tokenizer) : Option Tokenizer :=
  match state.cursor.text with
  | [] => state.atStreamEnd
  | c :: _ =>
      let standsAlone := state.cursor.spaceAfter 1
      if state.cursor.column = 0 && c = '%' then state.atDirective
      else if state.cursor.atDocumentMarker then
        state.atDocumentMarker (if c = '-' then .documentStart else .documentEnd)
      else if c = '[' then state.atFlowStart .flowSequenceStart
      else if c = '\x7b' then state.atFlowStart .flowMappingStart
      else if c = ']' then state.atFlowEnd .flowSequenceEnd
      else if c = '\x7d' then state.atFlowEnd .flowMappingEnd
      else if c = ',' then state.atFlowEntry
      else if c = '-' && standsAlone then state.atBlockEntry
      else if c = '?' && (state.inFlow || standsAlone) then state.atKey
      else if c = ':' && (state.inFlow || standsAlone) then state.atValue
      else if c = '*' then state.atAnchor .reference
      else if c = '&' then state.atAnchor .anchor
      else if c = '!' then state.atTag
      else if c = '|' && !state.inFlow then state.atBlockScalar true
      else if c = '>' && !state.inFlow then state.atBlockScalar false
      else if c = '\'' then state.atQuoted true
      else if c = '"' then state.atQuoted false
      else if state.startsPlain c then state.atPlain
      else none

/-- Goes to the next token, closes the blocks that end before it, and reads it. -/
def fetch (state : Tokenizer) : Option Tokenizer := do
  let state := state.skipToToken (state.cursor.text.length + 1)
  let state ← state.dropStale
  (state.closeBlocks state.cursor.column).readToken

/-- Whether the first token of the queue may still become a key. -/
def holdsBack (state : Tokenizer) : Bool :=
  (state.pending :: state.outerPending).any fun key => key.any (·.number = state.delivered)

/-- The tokens from here on. The fuel bounds the steps. -/
def tokens : Nat → Tokenizer → List Token
  | 0, _ => []
  | fuel + 1, state =>
      match state.queue with
      | [] =>
          match state.fetch with
          | none => []
          | some state => tokens fuel state
      | token :: rest =>
          match state.dropStale with
          | none => []
          | some state =>
              if state.holdsBack then
                match state.fetch with
                | none => []
                | some state => tokens fuel state
              else if token = .streamEnd then [token]
              else token :: tokens fuel { state with queue := rest, delivered := state.delivered + 1 }

end Tokenizer

/-- The tokens of a text, up to its end or to where it is malformed. A text with a character that
may not stand in one has none. -/
def tokens (text : String) : List Token :=
  let characters := text.toList
  if characters.all isAllowed then
    (Tokenizer.start characters).tokens (8 * (characters.length + 4))
  else []

end Yaml

end MetricCatalog
