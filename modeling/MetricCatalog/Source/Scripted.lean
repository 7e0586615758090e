/-
# Scripted databases

Databases whose tables and answers are declared up front. What is done with them
is recorded in order.
-/

import MetricCatalog.Source.Driver

namespace MetricCatalog

namespace Scripted

/-- A table. -/
structure Table where
  columns : List NativeColumn
  /-- The milliseconds it takes to read the columns. -/
  delay : Nat
  /-- Why the columns cannot be read. -/
  failure : Option String
  deriving DecidableEq, Repr

/-- The answer to a statement. -/
inductive Answer
  | rows (description : List CursorColumn) (rows : List Row)
  | failure (complaint : String)
  deriving DecidableEq, Repr

/-- Something that was done with a database. -/
inductive Event
  | probeStarted (database table : String)
  | probeFinished (database table : String)
  | executed (database sql : String)
  deriving DecidableEq, Repr

/-- The declared databases, and what was done with them. -/
structure State where
  /-- The tables, by database, name and perhaps schema. -/
  tables : KeyMap (List String) Table
  /-- The answers, by database and statement. -/
  answers : KeyMap (List String) Answer
  /-- The databases that refuse connections. -/
  unreachable : List String
  /-- What was done, in order. -/
  events : List Event
  deriving Repr

instance : Inhabited State := ⟨⟨.empty, .empty, [], []⟩⟩

namespace State

/-- The key of a table. -/
def tableKey (database : String) (schema : Option String) (table : String) : List String :=
  [database, table] ++ schema.toList

/-- Declares a table; one that was declared before is forgotten. -/
def withTable (state : State) (database : String) (schema : Option String) (name : String)
    (table : Table) : State :=
  { state with tables := state.tables.insert (tableKey database schema name) table }

/-- Declares the answer to a statement; one that was declared before is forgotten. -/
def withAnswer (state : State) (database sql : String) (answer : Answer) : State :=
  { state with answers := state.answers.insert [database, Text.trimmed sql] answer }

/-- Lets a database refuse connections. -/
def withUnreachable (state : State) (database : String) : State :=
  { state with unreachable := database :: state.unreachable }

/-- Records something. -/
def record (state : State) (event : Event) : State :=
  { state with events := state.events ++ [event] }

/-- Opens a connection to the database that a URI names. -/
def connect (state : State) (uri : ConnectionUri) : Except SourceError String :=
  match uri.host with
  | none => .error (.missingDatabase uri.raw)
  | some database =>
      if state.unreachable.contains database then .error (.unreachable database)
      else .ok database

/-- Starts to read the columns of a table. -/
def startProbe (state : State) (database : String) (schema : Option String) (table : String) :
    Except SourceError Table × State :=
  let name := qualifiedName schema table
  match state.tables.find? (tableKey database schema table) with
  | none => (.error (.tableNotFound name), state)
  | some found => (.ok found, state.record (.probeStarted database name))

/-- Ends the reading of a table's columns. -/
def finishProbe (state : State) (database name : String) (table : Table) :
    Except SourceError (List NativeColumn) × State :=
  let answer :=
    match table.failure with
    | some reason => .error (.probeFailed name reason)
    | none => .ok table.columns
  (answer, state.record (.probeFinished database name))

/-- Runs a statement. -/
def execute (state : State) (database sql : String) : Except SourceError Cursor × State :=
  let sql := Text.trimmed sql
  let answer :=
    match state.answers.find? [database, sql] with
    | some (.rows description rows) => .ok ⟨description, rows.map .ok⟩
    | some (.failure complaint) => .error (.statement complaint)
    | none => .error (.unknownStatement sql)
  (answer, state.record (.executed database sql))

/-- The statements that were run, in order. -/
def executed (state : State) : List String :=
  state.events.filterMap fun
    | .executed _ sql => some sql
    | _ => none

end State

end Scripted

end MetricCatalog
