/-
# The workspace of a compile run

All tasks of a run share one session, in which each change is flushed at once,
and the surroundings.
-/

import MetricCatalog.Compile.Error

namespace MetricCatalog

/-- What the tasks of a run work with. -/
structure Workspace (σ : Type) where
  /-- The session that collects the changes of the run. -/
  session : Session
  /-- Files, clock and databases. -/
  environment : Environment σ
  deriving Repr

namespace Workspace

variable {σ : Type}

/-- The workspace after a change of the session. -/
def change (workspace : Workspace σ) (mutation : Mutation) :
    Except CompileError Unit × Workspace σ :=
  let (result, session) := (workspace.session.push mutation).flush
  (result.mapError fun error => .store (.conflict error), { workspace with session := session })

/-- An identifier and the time for a new record. -/
def stamp (workspace : Workspace σ) : Uuid × Instant × Workspace σ :=
  let (now, environment) := workspace.environment.readClock
  let (id, environment) := environment.newId
  (id, now, { workspace with environment := environment })

end Workspace

end MetricCatalog
