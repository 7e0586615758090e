/-
# Filters

A filter names a column, an operator and a literal, as in `age>=18` or
`name='bob'`. It is bound to the columns of a node and becomes a condition.
-/

import MetricCatalog.ColumnType
import MetricCatalog.Query.Literal
import MetricCatalog.Text.Blank
import MetricCatalog.Text.Letter

namespace MetricCatalog

open Text

/-- The operators of filters. -/
inductive Operator
  | eq | notEq | lt | ltEq | gt | gtEq
  deriving DecidableEq, Repr

namespace Operator

/-- Every operator. -/
def all : List Operator := [eq, notEq, lt, ltEq, gt, gtEq]

/-- The sign of the operator. -/
def sign : Operator → String
  | eq => "="
  | notEq => "!="
  | lt => "<"
  | ltEq => "<="
  | gt => ">"
  | gtEq => ">="

/-- The operator with the given sign. -/
def ofSign? (text : String) : Option Operator := all.find? (·.sign == text)

end Operator

/-- Why a text is no filter for the columns there are. -/
inductive FilterError
  /-- The text has not the form of a filter. -/
  | malformed (expression : String)
  /-- There is no such column. -/
  | unknownColumn (name : String)
  /-- There is no such operator. -/
  | unsupportedOperator (sign : String)
  /-- The literal cannot be read. -/
  | invalidLiteral (text : String)
  deriving DecidableEq, Repr

/-- The text of the complaint. -/
def FilterError.message : FilterError → String
  | malformed expression => s!"Invalid filter: {expression}"
  | unknownColumn name => s!"Invalid column name: {name}"
  | unsupportedOperator sign =>
      let valid := ", ".intercalate (Operator.all.map Operator.sign)
      s!"Invalid operation: {sign} (valid: {valid})"
  | invalidLiteral text => s!"Invalid value: {text}"

/-- The three parts of a filter as they are written. -/
structure FilterParts where
  /-- The name of the column. -/
  column : List Char
  /-- The sign of the operator. -/
  operator : List Char
  literal : List Char
  deriving DecidableEq, Repr

namespace FilterParts

/-- Whether the character may stand in the name of a column. -/
def isColumnChar (c : Char) : Bool := isWordChar c || c = '.' || c = '/'

/-- Whether a literal may start with the character. -/
def isLiteralStart (c : Char) : Bool :=
  isWordChar c || c = '\'' || c = '"' || c = '.' || c = '/' || c = '+' || c = '-'

/-- Whether the character may stand in an operator. -/
def isOperatorChar (c : Char) : Bool := !(isLiteralStart c || isBlank c)

/-- The parts of a filter. The classes of characters keep them apart, so there is only one way
to find them: each part is as long as it can be. -/
def parse? (expression : List Char) : Option FilterParts :=
  let text := trimStart expression
  let column := text.takeWhile isColumnChar
  let text := trimStart (text.dropWhile isColumnChar)
  let operator := text.takeWhile isOperatorChar
  let literal := trim (text.dropWhile isOperatorChar)
  if column.isEmpty || operator.isEmpty || !literal.head?.any isLiteralStart ||
      literal.contains '\n' then none
  else some ⟨column, operator, literal⟩

end FilterParts

/-- A filter bound to a column. -/
structure Predicate where
  /-- The name of the column. -/
  column : String
  columnType : ColumnType
  op : Operator
  literal : Literal
  deriving DecidableEq, Repr

/-- The condition in a statement. -/
def Predicate.sql (predicate : Predicate) : String :=
  s!"{quoteIdentifier predicate.column} {predicate.op.sign} {predicate.literal.sql}"

/-- The type of the last column of a name. -/
def columnType? (columns : List (String × ColumnType)) (name : String) : Option ColumnType :=
  (columns.reverse.find? fun column => column.1 == name).map (·.2)

/-- Binds a filter to the columns it may name. -/
def compileFilter (columns : List (String × ColumnType)) (expression : String) :
    Except FilterError Predicate :=
  match FilterParts.parse? expression.toList with
  | none => .error (.malformed expression)
  | some parts =>
      let column := String.ofList parts.column
      match columnType? columns column with
      | none => .error (.unknownColumn column)
      | some columnType =>
          match Operator.ofSign? (String.ofList parts.operator) with
          | none => .error (.unsupportedOperator (String.ofList parts.operator))
          | some op =>
              match Literal.parseText parts.literal with
              | none => .error (.invalidLiteral (String.ofList parts.literal))
              | some literal => .ok ⟨column, columnType, op, literal⟩

end MetricCatalog
