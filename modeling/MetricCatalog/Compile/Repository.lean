/-
# Compiling a repository

A run takes the databases of a repository into the catalog first and its nodes
then, and commits all changes at once. What can be compiled is, whatever becomes
of the rest.
-/

import MetricCatalog.Compile.DatabaseTask
import MetricCatalog.Compile.Report

namespace MetricCatalog

namespace Repository

variable {σ γ : Type}

/-- Loads the definition of a node, or says why it does not load. -/
def loadNode (files : FileTree) (root path : Path) : Except FailedNode NodeDefinition :=
  (Definition.load Yaml.readNodeConfig files root path).mapError fun error =>
    ⟨(Definition.nameOf root path).toOption.getD path.text, error.message⟩

/-- Loads the definitions of all nodes, next to those that do not load. -/
def loadNodes (files : FileTree) (root : Path) : List FailedNode × List NodeDefinition :=
  let loaded := (Definition.discover files root .node).map (loadNode files root)
  let failures := loaded.filterMap fun
    | .ok _ => none
    | .error failed => some failed
  (failures, loaded.filterMap Except.toOption)

/-- Takes the nodes into the catalog. -/
def compileNodes (drivers : Drivers (Environment σ) γ) (extract : String → NameSet)
    (root : Path) (workspace : Workspace σ) : GraphReport × Workspace σ :=
  let (unloaded, definitions) := loadNodes workspace.environment.files root
  let databases := workspace.session.databasesByName
  let agenda := Agenda.ofSchedule (.ofDefinitions extract definitions) workspace
  let ended := agenda.run drivers databases (Agenda.turns definitions)
  (.ofSchedule unloaded ended.schedule, ended.workspace)

/-- Takes the databases of a repository into the catalog and commits the changes. -/
def index (root : Path) (store : Store) (environment : Environment σ) :
    Except StoreError (List Database) × Store × Environment σ :=
  let (databases, workspace) := DatabaseTask.indexAll root ⟨store.begin, environment⟩
  let (result, store, environment) := store.commit workspace.session workspace.environment
  (result.map fun _ => databases, store, environment)

/-- Compiles a repository and commits the changes. -/
def compile (drivers : Drivers (Environment σ) γ) (extract : String → NameSet) (root : Path)
    (store : Store) (environment : Environment σ) :
    Except StoreError CompileReport × Store × Environment σ :=
  let (databases, workspace) := DatabaseTask.indexAll root ⟨store.begin, environment⟩
  let (graph, workspace) := compileNodes drivers extract root workspace
  let (result, store, environment) := store.commit workspace.session workspace.environment
  (result.map fun catalog => ⟨databases, graph, catalog.version⟩, store, environment)

end Repository

end MetricCatalog
