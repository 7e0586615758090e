/-
# Changing a catalog

What each change does to a catalog, and why it cannot be made. A log of changes
is made as a whole or not at all.
-/

import MetricCatalog.Catalog.Record

namespace MetricCatalog

/-- Why a change cannot be made. -/
inductive CatalogError
  /-- There is an entry of this name already. -/
  | duplicateName (kind : EntryKind) (name : String)
  | missingEntry (kind : EntryKind) (name : String)
  deriving DecidableEq, Repr

/-- The text of the complaint. -/
def CatalogError.message : CatalogError → String
  | duplicateName kind name => s!"Duplicate name for {kind.name}: {name}"
  | missingEntry kind name => s!"Missing {kind.name}: {name}"

/-- The catalog after a change. -/
def Mutation.apply (catalog : Catalog) : Mutation → Except CatalogError Catalog
  | createDatabase database =>
      if catalog.databases.contains database.name then
        .error (.duplicateName .database database.name)
      else .ok { catalog with databases := catalog.databases.insert database.name database }
  | dropDatabase name =>
      if catalog.databases.contains name then
        .ok { catalog with databases := catalog.databases.erase name }
      else .error (.missingEntry .database name)
  | createNode node =>
      if catalog.nodes.contains node.name then .error (.duplicateName .node node.name)
      else .ok { catalog with nodes := catalog.nodes.insert node.name node }
  | dropNode name =>
      if catalog.nodes.contains name then
        .ok { catalog with nodes := catalog.nodes.erase name }
      else .error (.missingEntry .node name)
  | putQuery query => .ok { catalog with queries := catalog.queries.insert query.id query }

/-- The catalog after a log of changes, made one after another. -/
def Catalog.applyAll (catalog : Catalog) (log : List Mutation) : Except CatalogError Catalog :=
  log.foldlM Mutation.apply catalog

end MetricCatalog
