/-
# Catalog records

What the catalog keeps: databases, nodes with their representations and columns,
and queries; and the single changes that can be made to it.
-/

import MetricCatalog.ColumnType
import MetricCatalog.KeyMap
import MetricCatalog.Number.Double
import MetricCatalog.Time.Instant
import MetricCatalog.Uuid

namespace MetricCatalog

/-- The kinds of entries of a catalog. -/
inductive EntryKind
  | database | node | query
  deriving DecidableEq, Repr

/-- The name of the kind. -/
def EntryKind.name : EntryKind → String
  | database => "database"
  | node => "node"
  | query => "query"

/-- A physical database in which nodes can be represented. -/
structure Database where
  /-- A new one is made every time the database is recreated. -/
  id : Uuid
  /-- The name by which nodes and queries refer to it. -/
  name : String
  /-- Where to connect to. -/
  uri : String
  /-- A description for people. -/
  description : Option String
  /-- When a record of this name was first made. -/
  createdAt : Instant
  /-- When this record was made. -/
  updatedAt : Instant
  deriving DecidableEq, Repr

/-- Where a node lives in one database. -/
structure Representation where
  /-- The name of the database. -/
  database : String
  /-- The schema of the table, if it is not the default one. -/
  schema : Option String
  /-- The name of the table. -/
  table : String
  deriving DecidableEq, Repr

/-- A column with its type. -/
structure Column where
  /-- The name of the column. -/
  name : String
  type : ColumnType
  deriving DecidableEq, Repr

/-- A node of the metrics graph. -/
structure Node where
  /-- A new one is made every time the node is recompiled. -/
  id : Uuid
  /-- The name of the node. -/
  name : String
  /-- A description for people. -/
  description : Option String
  /-- The expression that defines the node; a source node has none. -/
  expression : Option String
  /-- Where the node is stored. -/
  representations : List Representation
  /-- The columns found in the representations. -/
  columns : List Column
  /-- When a record of this name was first made. -/
  createdAt : Instant
  /-- When this record was made. -/
  updatedAt : Instant
  deriving DecidableEq, Repr

/-- The first column of a name. -/
def Node.column? (node : Node) (name : String) : Option Column :=
  node.columns.find? (·.name == name)

/-- The first representation in a database. -/
def Node.representation? (node : Node) (database : String) : Option Representation :=
  node.representations.find? (·.database == database)

/-- How far a query has come. -/
inductive QueryState
  | pending | scheduled | finished | failed
  deriving DecidableEq, Repr

namespace QueryState

/-- Every state, in the order of their course. -/
def all : List QueryState := [pending, scheduled, finished, failed]

/-- The name of the state. -/
def name : QueryState → String
  | pending => "PENDING"
  | scheduled => "SCHEDULED"
  | finished => "FINISHED"
  | failed => "FAILED"

end QueryState

/-- A query against one database. -/
structure Query where
  /-- The identifier of the query. -/
  id : Uuid
  /-- The name of the database. -/
  database : String
  /-- A part of the database to which names belong. -/
  catalog : Option String
  /-- The text as it was submitted. -/
  submittedQuery : String
  /-- The text that was run. -/
  executedQuery : Option String
  /-- How far the query has come. -/
  state : QueryState
  /-- When it was taken up. -/
  scheduled : Option Instant
  /-- When its first statement was run. -/
  started : Option Instant
  /-- When it came to its end. -/
  finished : Option Instant
  /-- How much of it has been done, from zero to one. -/
  progress : Double
  deriving DecidableEq, Repr

/-- A query that has just been submitted. -/
def Query.new (id : Uuid) (database text : String) : Query where
  id := id
  database := database
  catalog := none
  submittedQuery := text
  executedQuery := none
  state := .pending
  scheduled := none
  started := none
  finished := none
  progress := .zero false

/-- Whether the query has been scheduled, started and finished, in this order. -/
def Query.isInOrder (query : Query) : Bool :=
  match query.scheduled, query.started, query.finished with
  | some scheduled, some started, some finished => scheduled ≤ started && started ≤ finished
  | _, _, _ => false

/-- Everything there is, at some version. -/
structure Catalog where
  /-- One more with every commit. -/
  version : UInt64
  /-- The databases by name. -/
  databases : KeyMap String Database
  /-- The nodes by name. -/
  nodes : KeyMap String Node
  /-- The queries by identifier. -/
  queries : KeyMap Uuid Query
  deriving DecidableEq, Repr

/-- The catalog before the first commit. -/
def Catalog.empty : Catalog := ⟨0, .empty, .empty, .empty⟩

instance : Inhabited Catalog := ⟨Catalog.empty⟩

/-- A single change of a catalog. -/
inductive Mutation
  | createDatabase (database : Database)
  | dropDatabase (name : String)
  | createNode (node : Node)
  /-- Removes a node along with its representations and columns. -/
  | dropNode (name : String)
  /-- Adds a query, or replaces the one with its identifier. -/
  | putQuery (query : Query)
  deriving DecidableEq, Repr

end MetricCatalog
