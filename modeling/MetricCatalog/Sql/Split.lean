/-
# Splitting a text into statements

Semicolons end statements. What stands between two of them is a statement if any
of its tokens is more than space or a comment; it is cut from the text by the
places of its first and last token and trimmed.
-/

import MetricCatalog.Sql.Lexer

namespace MetricCatalog

namespace Sql

open Text

/-- The runs of tokens between semicolons. There is one more of them than semicolons. -/
def runs : List Token → List (List Token)
  | [] => [[]]
  | token :: rest =>
      if token.kind = .semicolon then [] :: runs rest
      else
        match runs rest with
        | [] => [[token]]
        | first :: others => (token :: first) :: others

/-- Whether a run has anything to run in it. -/
def isStatement (run : List Token) : Bool := run.any (·.kind ≠ .space)

/-- The piece of a text that a run of tokens covers. -/
def pieceOf (text : List Char) (starts : List Nat) (run : List Token) : List Char :=
  match run.head?, run.getLast? with
  | some first, some last =>
      sliceBytes text (offsetOf starts text first.start) (offsetOf starts text last.stop)
  | _, _ => []

/-- The statements of a text. -/
def splitText (text : List Char) : Except LexError (List (List Char)) :=
  (tokens text).map fun tokens =>
    let starts := lineStarts text
    ((runs tokens).filter isStatement).map fun run => trim (pieceOf text starts run)

/-- The statements of a text, each without the space around it. -/
def splitStatements (text : String) : Except LexError (List String) :=
  (splitText text.toList).map fun statements => statements.map String.ofList

end Sql

end MetricCatalog
