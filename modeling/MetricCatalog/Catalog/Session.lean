/-
# Sessions

A session works on its own view of the catalog. Changes are buffered until a
flush makes them visible in the view and notes them in the log; a commit replays
the log on the catalog as it is by then.
-/

import MetricCatalog.Catalog.Change

namespace MetricCatalog

/-- A view of the catalog with changes that are not committed. -/
structure Session where
  /-- The catalog the session started from, with the flushed changes. -/
  view : Catalog
  /-- The changes that are not flushed, in order. -/
  pending : List Mutation
  /-- The flushed changes, in order. -/
  log : List Mutation
  deriving DecidableEq, Repr, Inhabited

namespace Session

/-- A session on top of a catalog. -/
def start (base : Catalog) : Session := ⟨base, [], []⟩

/-- The database of a name. -/
def database? (session : Session) (name : String) : Option Database :=
  session.view.databases.find? name

/-- All databases by their own names, which the catalog need not keep them at. Of two with one name
the later one counts. -/
def databasesByName (session : Session) : KeyMap String Database :=
  .ofList (session.view.databases.values.map fun database => (database.name, database))

/-- The node of a name. -/
def node? (session : Session) (name : String) : Option Node := session.view.nodes.find? name

/-- The query of an identifier. -/
def query? (session : Session) (id : Uuid) : Option Query := session.view.queries.find? id

/-- Buffers a change. -/
def push (session : Session) (mutation : Mutation) : Session :=
  { session with pending := session.pending ++ [mutation] }

/-- Makes the buffered changes. If one of them cannot be made none is, and they are forgotten. -/
def flush (session : Session) : Except CatalogError Unit × Session :=
  match session.view.applyAll session.pending with
  | .ok view => (.ok (), ⟨view, [], session.log ++ session.pending⟩)
  | .error error => (.error error, { session with pending := [] })

end Session

end MetricCatalog
