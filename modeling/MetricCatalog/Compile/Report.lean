/-
# What a compile run reports

The databases and nodes that a run found up to date or made, the definitions it
could not load or compile, and those it never came to.
-/

import MetricCatalog.Catalog.Codec
import MetricCatalog.Compile.Agenda

namespace MetricCatalog

/-- A definition that could not be loaded or compiled. -/
structure FailedNode where
  /-- The name, or the path where there is no name. -/
  name : String
  /-- The text of the complaint. -/
  error : String
  deriving DecidableEq, Repr

/-- A definition that was not compiled because of its dependencies. -/
structure UnresolvedNode where
  name : String
  /-- The dependencies that were not compiled, in order. -/
  missing : List String
  deriving DecidableEq, Repr

/-- What became of the definitions of nodes. -/
structure GraphReport where
  /-- The compiled nodes, in the order of their completion. -/
  nodes : List Node
  /-- What failed: loading first. -/
  failed : List FailedNode
  /-- What was not compiled because of its dependencies. -/
  unresolved : List UnresolvedNode
  deriving DecidableEq, Repr

/-- What became of a repository. -/
structure CompileReport where
  /-- The databases, in the order of their paths. -/
  databases : List Database
  graph : GraphReport
  /-- The version of the catalog with the changes of the run. -/
  version : UInt64
  deriving DecidableEq, Repr

/-- The report on a schedule that has come to its end, with the definitions that did not load. -/
def GraphReport.ofSchedule (unloaded : List FailedNode) (schedule : Schedule) : GraphReport where
  nodes := schedule.nodes
  failed := unloaded ++ schedule.failures.map fun (definition, error) =>
    ⟨definition.name, error.message⟩
  unresolved := schedule.unresolved.map fun (definition, missing) => ⟨definition.name, missing⟩

namespace Codec

/-- A definition that failed, in JSON. -/
def ofFailedNode (failed : FailedNode) : Json :=
  Json.record [("name", .str failed.name), ("error", .str failed.error)]

/-- A definition that was not compiled, in JSON. -/
def ofUnresolvedNode (unresolved : UnresolvedNode) : Json :=
  Json.record [
    ("name", .str unresolved.name),
    ("missing", .arr (unresolved.missing.map .str))]

/-- A report in JSON. -/
def ofCompileReport (report : CompileReport) : Json :=
  Json.record [
    ("databases", .arr (report.databases.map ofDatabase)),
    ("nodes", .arr (report.graph.nodes.map ofNode)),
    ("failed", .arr (report.graph.failed.map ofFailedNode)),
    ("unresolved", .arr (report.graph.unresolved.map ofUnresolvedNode)),
    ("version", .nat report.version.toNat)]

end Codec

end MetricCatalog
