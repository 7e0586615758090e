/-
# Failures of compiling

Why a definition is not compiled into the catalog.
-/

import MetricCatalog.Catalog.Store
import MetricCatalog.Definition.Load
import MetricCatalog.Source.Driver

namespace MetricCatalog

/-- Why a definition is not compiled. -/
inductive CompileError
  /-- The definition cannot be loaded. -/
  | definition (cause : DefinitionError)
  /-- A representation is in a database that the catalog does not have. -/
  | unknownDatabase (node database : String)
  /-- The columns of a table cannot be read. -/
  | probeFailure (database table : String) (cause : SourceError)
  /-- The catalog does not take the change. -/
  | store (cause : StoreError)
  deriving DecidableEq, Repr

/-- The text of the complaint. -/
def CompileError.message : CompileError → String
  | definition cause => cause.message
  | unknownDatabase node database => s!"Node '{node}' references unknown database '{database}'"
  | probeFailure database table cause =>
      s!"Failed to probe '{table}' in database '{database}': {cause.message}"
  | store cause => cause.message

end MetricCatalog
