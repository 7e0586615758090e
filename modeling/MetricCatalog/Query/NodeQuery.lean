/-
# Queries on nodes

A node is queried through one of its representations: everything is selected
from its table, and the filters are joined as conditions.
-/

import MetricCatalog.Catalog.Record
import MetricCatalog.Query.Filter

namespace MetricCatalog

open Text

/-- A statement for one database. -/
structure NodeQuery where
  /-- The name of the database. -/
  database : String
  sql : String
  deriving DecidableEq, Repr

/-- Why there is no query for a node. -/
inductive NodeQueryError
  /-- The node is not represented in the database that was asked for. -/
  | missingRepresentation (node database : String)
  /-- The node is not represented anywhere. -/
  | noRepresentations (node : String)
  /-- A filter does not fit the node. -/
  | filter (error : FilterError)
  deriving DecidableEq, Repr

/-- The text of the complaint. -/
def NodeQueryError.message : NodeQueryError → String
  | missingRepresentation node database =>
      s!"Node '{node}' has no representation in database '{database}'"
  | noRepresentations node => s!"Node '{node}' has no representations"
  | filter error => error.message

namespace NodeQuery

/-- The representation that is queried: the one in a given database, or else the first. -/
def representationFor (node : Node) : Option String → Except NodeQueryError Representation
  | some database =>
      match node.representation? database with
      | some representation => .ok representation
      | none => .error (.missingRepresentation node.name database)
  | none =>
      match node.representations.head? with
      | some representation => .ok representation
      | none => .error (.noRepresentations node.name)

/-- Binds filters in their order, up to the first that does not fit. -/
def compileFilters (columns : List (String × ColumnType)) (filters : List String) :
    Except FilterError (List Predicate) := filters.mapM (compileFilter columns)

/-- The conditions behind the table, joined by `AND`. -/
def conditions : List Predicate → String
  | [] => ""
  | predicates => " WHERE " ++ " AND ".intercalate (predicates.map Predicate.sql)

/-- The table of a representation, with its schema if it has one. -/
def tableName (representation : Representation) : String :=
  match representation.schema with
  | some schema => s!"{quoteIdentifier schema}.{quoteIdentifier representation.table}"
  | none => quoteIdentifier representation.table

/-- The query for a node. -/
def build (node : Node) (database : Option String) (filters : List String) :
    Except NodeQueryError NodeQuery := do
  let representation ← representationFor node database
  let columns := node.columns.map fun column => (column.name, column.type)
  match compileFilters columns filters with
  | .error error => .error (.filter error)
  | .ok predicates =>
      let table := tableName representation
      .ok ⟨representation.database, s!"SELECT * FROM {table}{conditions predicates}"⟩

end NodeQuery

end MetricCatalog
