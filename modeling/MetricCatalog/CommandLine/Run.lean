/-
# Running commands

What a command prints, what it changes, and how it ends. A report goes to the
output as JSON; what stops a command goes to the error output.
-/

import MetricCatalog.CommandLine.Help
import MetricCatalog.Compile.Repository
import MetricCatalog.Query.Execution
import MetricCatalog.Source.Builtin

namespace MetricCatalog.CommandLine

/-- What stops a command. -/
inductive CommandError
  | noRepository (path : Path)
  /-- The catalog cannot be opened or changed. -/
  | store (cause : StoreError)
  /-- The query cannot be run. -/
  | query (cause : QueryError)
  /-- The query was run and did not finish. -/
  | unfinished (id : Uuid) (state : QueryState) (errors : List String)
  deriving DecidableEq, Repr

/-- The complaint of the system behind a complaint of the store. -/
def systemCause : StoreError → Option OsError
  | .storage (.inaccessible _ cause) => some cause
  | .storage (.undecodable _) | .conflict _ => none

namespace CommandError

/-- The text of the complaint. -/
def message : CommandError → String
  | noRepository path => s!"repository '{path}' is not a directory"
  | store cause => cause.message
  | query cause => cause.message
  | unfinished id state errors => s!"query {id} {state.name}: " ++ "; ".intercalate errors

/-- The complaint of the system behind it. -/
def cause? : CommandError → Option OsError
  | store cause | query (.store cause) => systemCause cause
  | query (.results cause) => some cause.cause
  | noRepository _ | query _ | unfinished _ _ _ => none

/-- The text for the error output. -/
def report (error : CommandError) : String :=
  let behind :=
    match error.cause? with
    | some cause => s!"\n\nCaused by:\n    {cause.message}"
    | none => ""
  s!"Error: {error.message}{behind}\n"

end CommandError

/-- What a command printed, and what stopped it. -/
structure Outcome where
  /-- The text of the output. -/
  output : String
  /-- The text of the error output. -/
  complaint : String
  /-- The number that tells how it ended; it is zero if nothing stopped it. -/
  exitCode : UInt8
  deriving DecidableEq, Repr

/-- A run that ended well. -/
def Outcome.printed (output : String) : Outcome := ⟨output, "", 0⟩

/-- The run of a command that printed a report and perhaps was stopped. -/
def Outcome.ofCommand (report : Option Json) (error : Option CommandError) : Outcome where
  output := (report.map fun json => json.pretty ++ "\n").getD ""
  complaint := (error.map CommandError.report).getD ""
  exitCode := if error.isSome then 1 else 0

/-- The drivers that commands have. -/
def drivers : Drivers Builtin.Surroundings Connection := Builtin.drivers [.embedded]

/-- Compiles a repository. -/
def compile (metastore : Option Path) (repository : Path) (environment : Builtin.Surroundings) :
    Outcome × Builtin.Surroundings :=
  if !environment.files.isDirectory repository then
    (.ofCommand none (some (.noRepository repository)), environment)
  else
    match Store.openOptional metastore environment with
    | (.error error, environment) => (.ofCommand none (some (.store error)), environment)
    | (.ok store, environment) =>
        match Repository.compile drivers Dependencies.extract repository store environment with
        | (.error error, _, environment) => (.ofCommand none (some (.store error)), environment)
        | (.ok report, _, environment) =>
            (.ofCommand (some (Codec.ofCompileReport report)) none, environment)

/-- Runs SQL and reports how it ended. -/
def submit (database sql : String) (service : QueryService Sources) :
    Outcome × Builtin.Surroundings :=
  match service.submit drivers database sql with
  | (.error error, service) => (.ofCommand none (some (.query error)), service.environment)
  | (.ok processed, service) =>
      let query := processed.query
      let error :=
        if query.state = .finished then none
        else some (.unfinished query.id query.state processed.errors)
      (.ofCommand (some (Codec.ofQueryWithResults processed)) error, service.environment)

/-- What queries are run with, on an open store. -/
def serviceOn (results : Option Path) (store : Store) (environment : Builtin.Surroundings) :
    QueryService Sources :=
  ⟨store, (results.map ResultsBackend.directory).getD .inMemory, environment⟩

/-- The query on a node of a catalog. -/
def nodeQuery (catalog : Catalog) (node : String) (database : Option String)
    (filters : List String) : Except QueryError NodeQuery :=
  match catalog.nodes.find? node with
  | none => .error (.unknownNode node)
  | some found => (NodeQuery.build found database filters).mapError .nodeQuery

/-- Runs a command. -/
def Invocation.run (invocation : Invocation) (environment : Builtin.Surroundings) :
    Outcome × Builtin.Surroundings :=
  match invocation.command with
  | .compile repository => CommandLine.compile invocation.metastore repository environment
  | .query database sql =>
      match Store.openOptional invocation.metastore environment with
      | (.error error, environment) => (.ofCommand none (some (.store error)), environment)
      | (.ok store, environment) =>
          submit database sql (serviceOn invocation.resultsDirectory store environment)
  | .queryNode node database filters =>
      match Store.openOptional invocation.metastore environment with
      | (.error error, environment) => (.ofCommand none (some (.store error)), environment)
      | (.ok store, environment) =>
          match nodeQuery store.committed node database filters with
          | .error error => (.ofCommand none (some (.query error)), environment)
          | .ok query =>
              submit query.database query.sql
                (serviceOn invocation.resultsDirectory store environment)

/-- What is printed in place of running a command. -/
def Stop.outcome (variableOf : String → Option String) : Stop → Outcome
  | help command => .printed (Help.text variableOf command)
  | version => .printed s!"{programName} {programVersion}\n"
  | misused error =>
      ⟨"", s!"error: {error.message}\n\nFor more information, try '--help'.\n", 2⟩

/-- Does what a command line asks for. -/
def run (variableOf : String → Option String) (words : List String)
    (environment : Builtin.Surroundings) : Outcome × Builtin.Surroundings :=
  match parse variableOf words with
  | .error stop => (stop.outcome variableOf, environment)
  | .ok invocation => invocation.run environment

end MetricCatalog.CommandLine
