/-
# The order of compiling nodes

A node is started as soon as all nodes it depends on have been compiled. The
nodes that were started compile side by side and complete in any order. Nodes on
a cycle, nodes with a dependency that does not exist or fails, and the nodes
that depend on such ones are never started.
-/

import MetricCatalog.Compile.Dependencies
import MetricCatalog.Compile.NodeTask

namespace MetricCatalog

/-- The definitions of a run, and how far it has come. -/
structure Schedule where
  /-- The definitions, in the order of their paths. -/
  definitions : List NodeDefinition
  /-- The names on which each name depends. -/
  dependencies : KeyMap String NameSet
  /-- The definitions that were started, in order. -/
  started : List NodeDefinition
  /-- How the started definitions ended, in the order of their completion. -/
  outcomes : List (NodeDefinition × Except CompileError Node)

namespace Schedule

/-- The names that definitions depend on. Of two definitions of one name the last one counts. -/
def dependenciesOf (extract : String → NameSet) (definitions : List NodeDefinition) :
    KeyMap String NameSet :=
  .ofList <| definitions.map fun definition =>
    (definition.name, (definition.config.expression.map extract).getD .empty)

/-- A schedule in which nothing has been started. -/
def ofDefinitions (extract : String → NameSet) (definitions : List NodeDefinition) : Schedule :=
  ⟨definitions, dependenciesOf extract definitions, [], []⟩

/-- The names that the node of a name depends on. -/
def dependenciesFor (schedule : Schedule) (name : String) : List String :=
  ((schedule.dependencies.find? name).map NameSet.toNames).getD []

/-- The names of the nodes that were started. -/
def startedNames (schedule : Schedule) : List String := schedule.started.map (·.name)

/-- The names of the nodes that have been compiled. -/
def finishedNames (schedule : Schedule) : List String :=
  schedule.outcomes.filterMap fun
    | (definition, .ok _) => some definition.name
    | (_, .error _) => none

/-- The dependencies of a name that have not been compiled. -/
def missing (schedule : Schedule) (name : String) : List String :=
  (schedule.dependenciesFor name).filter fun dependency =>
    !schedule.finishedNames.contains dependency

/-- The definitions that were not started, although all they depend on has been compiled. -/
def ready (schedule : Schedule) : List NodeDefinition :=
  schedule.definitions.filter fun definition =>
    !schedule.startedNames.contains definition.name && (schedule.missing definition.name).isEmpty

/-- The schedule after all ready definitions have been started. -/
def start (schedule : Schedule) : Schedule :=
  { schedule with started := schedule.started ++ schedule.ready }

/-- The schedule after a definition has ended. -/
def complete (schedule : Schedule) (definition : NodeDefinition)
    (result : Except CompileError Node) : Schedule :=
  { schedule with outcomes := schedule.outcomes ++ [(definition, result)] }

/-- The nodes that have been compiled, in order. -/
def nodes (schedule : Schedule) : List Node :=
  schedule.outcomes.filterMap fun
    | (_, .ok node) => some node
    | (_, .error _) => none

/-- The definitions that could not be compiled, in order. -/
def failures (schedule : Schedule) : List (NodeDefinition × CompileError) :=
  schedule.outcomes.filterMap fun
    | (_, .ok _) => none
    | (definition, .error error) => some (definition, error)

/-- The definitions that were not started, with the dependencies they miss. -/
def unresolved (schedule : Schedule) : List (NodeDefinition × List String) :=
  schedule.definitions.filterMap fun definition =>
    if schedule.startedNames.contains definition.name then none
    else some (definition, schedule.missing definition.name)

end Schedule

end MetricCatalog
