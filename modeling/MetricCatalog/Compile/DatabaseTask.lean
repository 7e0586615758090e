/-
# Indexing databases

A task takes one definition of a database into the catalog. It goes on in steps,
between which other tasks may run and files may change: the file is dated, the
date is held against the catalog, the file is read, the catalog is changed.
-/

import MetricCatalog.Compile.Workspace

namespace MetricCatalog

/-- How far a definition of a database has come. -/
inductive DatabaseTask
  /-- It has been found. -/
  | found (path : Path)
  /-- Its name and the time of its last change are known. -/
  | dated (path : Path) (name : String) (modified : Instant)
  /-- It is newer than the database of the catalog, if there is one. -/
  | outdated (path : Path) (name : String) (existing : Option Database)
  /-- It has been read. -/
  | loaded (name : String) (existing : Option Database) (config : DatabaseConfig)
  /-- It is in the catalog, or it never will be. -/
  | done (result : Except CompileError Database)
  deriving Repr

namespace DatabaseTask

variable {σ : Type}

/-- The database that a definition describes, made now. -/
def record (name : String) (existing : Option Database) (config : DatabaseConfig) (id : Uuid)
    (now : Instant) : Database where
  id := id
  name := name
  uri := config.uri
  description := config.description
  createdAt := (existing.map (·.createdAt)).getD now
  updatedAt := now

/-- Puts the database in the place of the one that is there. -/
def replace (name : String) (existing : Option Database) (config : DatabaseConfig)
    (workspace : Workspace σ) : Except CompileError Database × Workspace σ :=
  let (dropped, workspace) : Except CompileError Unit × Workspace σ :=
    match existing with
    | none => (.ok (), workspace)
    | some _ => workspace.change (.dropDatabase name)
  match dropped with
  | .error error => (.error error, workspace)
  | .ok () =>
      let (id, now, workspace) := workspace.stamp
      let database := record name existing config id now
      let (created, workspace) := workspace.change (.createDatabase database)
      (created.map fun _ => database, workspace)

/-- The next step of a task. -/
def step (root : Path) (task : DatabaseTask) (workspace : Workspace σ) :
    DatabaseTask × Workspace σ :=
  match task with
  | found path =>
      let dated : Except DefinitionError DatabaseTask := do
        let name ← Definition.nameOf root path
        let modified ← Definition.modifiedAt workspace.environment.files path
        return .dated path name modified
      match dated with
      | .ok task => (task, workspace)
      | .error error => (.done (.error (.definition error)), workspace)
  | dated path name modified =>
      match workspace.session.database? name with
      | some existing =>
          if modified ≤ existing.updatedAt then (.done (.ok existing), workspace)
          else (.outdated path name (some existing), workspace)
      | none => (.outdated path name none, workspace)
  | outdated path name existing =>
      match Definition.readConfig Yaml.readDatabaseConfig workspace.environment.files path with
      | .ok config => (.loaded name existing config, workspace)
      | .error error => (.done (.error (.definition error)), workspace)
  | loaded name existing config =>
      let (result, workspace) := replace name existing config workspace
      (.done result, workspace)
  | done result => (.done result, workspace)

/-- The next step of each task, in order. -/
def stepAll (root : Path) : List DatabaseTask → Workspace σ → List DatabaseTask × Workspace σ
  | [], workspace => ([], workspace)
  | task :: rest, workspace =>
      let (task, workspace) := task.step root workspace
      let (rest, workspace) := stepAll root rest workspace
      (task :: rest, workspace)

/-- The tasks after a number of rounds, in each of which every task takes a step. -/
def rounds (root : Path) : Nat → List DatabaseTask → Workspace σ →
    List DatabaseTask × Workspace σ
  | 0, tasks, workspace => (tasks, workspace)
  | n + 1, tasks, workspace =>
      let (tasks, workspace) := stepAll root tasks workspace
      rounds root n tasks workspace

/-- The steps from finding a definition to the end. -/
def stepCount : Nat := 4

/-- The database a task ended with. -/
def database? : DatabaseTask → Option Database
  | done (.ok database) => some database
  | _ => none

/-- Takes all definitions of databases into the catalog. The databases are those whose
definitions could be taken, in the order of their paths. -/
def indexAll (root : Path) (workspace : Workspace σ) : List Database × Workspace σ :=
  let found := (Definition.discover workspace.environment.files root .database).map found
  let (tasks, workspace) := rounds root stepCount found workspace
  (tasks.filterMap database?, workspace)

end DatabaseTask

end MetricCatalog
