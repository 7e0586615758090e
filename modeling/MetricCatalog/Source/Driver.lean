/-
# Drivers

All that a run asks of databases goes through drivers: connecting, reading the
columns of a table, running a statement. A driver is a record of functions, so
that what holds of a run can be said for every way in which databases may
answer. The state it works on is passed along.
-/

import MetricCatalog.Source.Kind
import MetricCatalog.Source.Value

namespace MetricCatalog

/-- Why a database does not do what it is asked for. -/
inductive SourceError
  /-- The URI is none. -/
  | invalidUri (uri : String) (fault : UriFault)
  /-- No driver is there for the scheme. -/
  | unsupportedScheme (scheme : String)
  /-- There is no such table. -/
  | tableNotFound (table : String)
  /-- An embedded database complains. -/
  | embedded (complaint : String)
  /-- The URI of a scripted database names none. -/
  | missingDatabase (uri : String)
  /-- A scripted database refuses connections. -/
  | unreachable (database : String)
  /-- A scripted table does not let itself be read. -/
  | probeFailed (table reason : String)
  /-- A scripted statement fails. -/
  | statement (complaint : String)
  /-- A statement is not scripted. -/
  | unknownStatement (sql : String)
  deriving DecidableEq, Repr

/-- The text of the complaint. -/
def SourceError.message : SourceError → String
  | invalidUri uri fault => s!"Invalid connection URI '{uri}': {fault.message}"
  | unsupportedScheme scheme => s!"No driver registered for scheme '{scheme}'"
  | tableNotFound table => s!"Table not found: {table}"
  | embedded complaint => complaint
  | missingDatabase uri => s!"Debug URI is missing a database name: {uri}"
  | unreachable database => s!"Debug database '{database}' is unreachable"
  | probeFailed table reason => s!"Failed to probe debug table '{table}': {reason}"
  | statement complaint => complaint
  | unknownStatement sql => s!"No scripted result for statement: {sql}"

/-- The name of a table with its schema. -/
def qualifiedName (schema : Option String) (table : String) : String :=
  match schema with
  | some schema => schema ++ "." ++ table
  | none => table

/-- A column of a table as its database declares it. -/
structure NativeColumn where
  name : String
  type : String
  deriving DecidableEq, Repr

/-- A column of a result. Not every database tells its type. -/
structure CursorColumn where
  name : String
  type : Option String
  deriving DecidableEq, Repr

/-- The output of a statement. Reading its rows may fail half-way. -/
structure Cursor where
  description : List CursorColumn
  rows : List (Except SourceError Row)
  deriving Repr

namespace Cursor

/-- All rows, unless one of them cannot be read. -/
def collect (cursor : Cursor) : Except SourceError (List Row) := cursor.rows.mapM id

/-- The columns of the cursor as they are shown to a person who looks for a fault. -/
def describe (cursor : Cursor) : String :=
  let columns := cursor.description.map fun column =>
    let type :=
      match column.type with
      | some type => "Some(" ++ Text.shown type ++ ")"
      | none => "None"
    "CursorColumn \x7b name: " ++ Text.shown column.name ++ ", native_type: " ++ type ++ " \x7d"
  "Cursor \x7b description: [" ++ ", ".intercalate columns ++ "], .. \x7d"

end Cursor

/-- The reading of a table's columns: it may take some time, and ends with an answer. -/
structure Probe (ω : Type) where
  /-- The milliseconds until the answer. -/
  wait : Nat
  /-- The answer, when the time has come. -/
  finish : ω → Except SourceError (List NativeColumn) × ω

namespace Probe

variable {ω : Type}

/-- An answer that is there at once. -/
def answered (answer : Except SourceError (List NativeColumn)) : Probe ω :=
  ⟨0, fun state => (answer, state)⟩

end Probe

/-- Drivers with connections of type `γ`, working on a state of type `ω`. -/
structure Drivers (ω γ : Type) where
  /-- Opens a connection to the database at a URI. -/
  connect : String → ω → Except SourceError γ × ω
  /-- Starts to read the columns of a table, of which the schema may be named. -/
  introspect : γ → String → Option String → ω → Probe ω × ω
  execute : γ → String → ω → Except SourceError Cursor × ω
  /-- The coarse kind of a native type in a result. -/
  classify : γ → String → Option NativeTypeBucket
  /-- The column type of a native type of a table. -/
  columnType : γ → String → Option ColumnType

end MetricCatalog
