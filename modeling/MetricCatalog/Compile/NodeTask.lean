/-
# Compiling nodes

A task takes one definition of a node into the catalog. A node that is not older
than its definition is kept. Otherwise the old node is dropped, the columns of
all representations are read at the same time, and when the last answer is there
the new node is made.
-/

import MetricCatalog.Compile.Reading
import MetricCatalog.Compile.Workspace

namespace MetricCatalog

/-- A definition of a node. -/
abbrev NodeDefinition := Definition NodeConfig

/-- How far a definition of a node has come. -/
inductive NodeTask (σ : Type)
  /-- Nothing has been done. -/
  | ready
  /-- The columns of its representations are being read. -/
  | reading (existing : Option Node) (representations : List Representation)
      (readings : List (Reading (Environment σ)))
  /-- It is in the catalog, or it will not be in this run. -/
  | done (result : Except CompileError Node)

namespace NodeTask

variable {σ γ : Type}

/-- The representations of a definition, all of them in known databases. -/
def representations (databases : KeyMap String Database) (definition : NodeDefinition) :
    Except CompileError (List Representation) :=
  definition.config.representations.mapM fun (database, config) =>
    if databases.contains database then .ok ⟨database, config.schema, config.table⟩
    else .error (.unknownDatabase definition.name database)

/-- The node that a definition describes, made now. -/
def record (definition : NodeDefinition) (existing : Option Node)
    (representations : List Representation) (columns : List Column) (id : Uuid)
    (now : Instant) : Node where
  id := id
  name := definition.name
  description := definition.config.description
  expression := definition.config.expression
  representations := representations
  columns := columns
  createdAt := (existing.map (·.createdAt)).getD now
  updatedAt := now

/-- Goes on with a reading: as long as an answer is missing there is nothing to do. -/
def settle (definition : NodeDefinition) (existing : Option Node)
    (representations : List Representation) (readings : List (Reading (Environment σ)))
    (workspace : Workspace σ) : NodeTask σ × Workspace σ :=
  match readings.mapM Reading.answer? with
  | none => (.reading existing representations readings, workspace)
  | some answers =>
      let (id, now, workspace) := workspace.stamp
      let node := record definition existing representations (Column.mergeAll answers) id now
      let (created, workspace) := workspace.change (.createNode node)
      (.done (created.map fun _ => node), workspace)

/-- Drops the node that is there and starts to read the columns. -/
def startReading (drivers : Drivers (Environment σ) γ) (databases : KeyMap String Database)
    (clock : Nat) (definition : NodeDefinition) (existing : Option Node)
    (representations : List Representation) (workspace : Workspace σ) :
    NodeTask σ × Workspace σ :=
  let (dropped, workspace) : Except CompileError Unit × Workspace σ :=
    match existing with
    | none => (.ok (), workspace)
    | some _ => workspace.change (.dropNode definition.name)
  match dropped with
  | .error error => (.done (.error error), workspace)
  | .ok () =>
      let (readings, environment) :=
        Reading.startAll drivers clock databases representations workspace.environment
      settle definition existing representations readings
        { workspace with environment := environment }

/-- The next step of a task at some millisecond. -/
def step (drivers : Drivers (Environment σ) γ) (databases : KeyMap String Database)
    (clock : Nat) (definition : NodeDefinition) (task : NodeTask σ) (workspace : Workspace σ) :
    NodeTask σ × Workspace σ :=
  match task with
  | ready =>
      let existing := workspace.session.node? definition.name
      match existing.filter fun node => definition.modified ≤ node.updatedAt with
      | some node => (.done (.ok node), workspace)
      | none =>
          match representations databases definition with
          | .error error => (.done (.error error), workspace)
          | .ok representations =>
              startReading drivers databases clock definition existing representations workspace
  | reading existing representations readings =>
      let (readings, environment) := Reading.wakeAll clock readings workspace.environment
      settle definition existing representations readings
        { workspace with environment := environment }
  | done result => (.done result, workspace)

/-- The milliseconds of the answers a task waits for, in order. -/
def dueTimes : NodeTask σ → List Nat
  | reading _ _ readings => Reading.dueTimes readings
  | ready | done _ => []

/-- How a task ended, if it did. -/
def result? : NodeTask σ → Option (Except CompileError Node)
  | done result => some result
  | ready | reading .. => none

/-- Takes a definition into the catalog, with nothing else going on. -/
def run (drivers : Drivers (Environment σ) γ) (databases : KeyMap String Database)
    (definition : NodeDefinition) (workspace : Workspace σ) : NodeTask σ × Workspace σ :=
  let started := step drivers databases 0 definition .ready workspace
  started.1.dueTimes.foldl
    (fun (task, workspace) clock => step drivers databases clock definition task workspace)
    started

end NodeTask

end MetricCatalog
