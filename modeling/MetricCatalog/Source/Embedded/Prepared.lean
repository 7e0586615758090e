/-
# Running prepared statements

A statement that an embedded database has prepared tells its columns, and its
rows can be asked for. All of them are read before anything is handed on, so a
statement that comes upon a row it cannot read has no output at all.
-/

import MetricCatalog.Source.Batch
import MetricCatalog.Source.Driver

namespace MetricCatalog

namespace Embedded

/-- A statement whose rows come from a supply. -/
structure Prepared (σ : Type) where
  /-- The names of the columns and their declared types. -/
  columns : List (String × Option String)
  /-- The supply before the first request. -/
  supply : σ

/-- What a statement gave that has run to its end. -/
structure Finished (α : Type) where
  columns : List (String × Option String)
  batches : List (List α)
  deriving DecidableEq, Repr

namespace Prepared

variable {σ ε α : Type}

/-- Runs a statement to its end. -/
def query (next : Supply σ ε α) (statement : Prepared σ)
    (hends : Batch.Ends next statement.supply) : Except ε (Finished α) := do
  let batches ← Batch.read next statement.supply hends
  return ⟨statement.columns, batches⟩

/-- All rows of a statement. -/
def queryAll (next : Supply σ ε α) (statement : Prepared σ)
    (hends : Batch.Ends next statement.supply) : Except ε (List α) := do
  let finished ← statement.query next hends
  return finished.batches.flatten

/-- A statement's columns, and its rows, of which none can fail any more. -/
def execute (next : Supply σ ε Row) (statement : Prepared σ)
    (hends : Batch.Ends next statement.supply) : Except ε Cursor := do
  let finished ← statement.query next hends
  return ⟨finished.columns.map fun (name, type) => ⟨name, type⟩,
    finished.batches.flatten.map .ok⟩

end Prepared

end Embedded

end MetricCatalog
