/-
# Running queries

A pending query is run statement by statement against one database of the
catalog. Either all statements succeed and their results are kept, or the first
failure fails the query and nothing but the failure is kept. Both outcomes are
recorded: the query in the catalog first, its results behind it.
-/

import MetricCatalog.Catalog.Store
import MetricCatalog.Query.Backend
import MetricCatalog.Query.NodeQuery
import MetricCatalog.Query.Results
import MetricCatalog.Source.Driver
import MetricCatalog.Sql.Split

namespace MetricCatalog

/-- Why a query fails, or cannot be recorded. -/
inductive QueryError
  /-- A statement fails. -/
  | statement (sql : String) (cause : SourceError)
  /-- The text is not made of statements. -/
  | invalidSql (cause : Sql.LexError)
  /-- The database is not in the catalog. -/
  | unknownDatabase (name : String)
  /-- The node is not in the catalog. -/
  | unknownNode (name : String)
  /-- There is no query for the node. -/
  | nodeQuery (cause : NodeQueryError)
  /-- The query has been run before. -/
  | alreadyProcessed (id : Uuid) (state : QueryState)
  /-- The results cannot be kept. -/
  | results (cause : BackendError)
  /-- The query cannot be recorded in the catalog. -/
  | store (cause : StoreError)
  deriving DecidableEq, Repr

/-- The text of the complaint. -/
def QueryError.message : QueryError → String
  | statement sql cause => s!"Failed to execute '{sql}': {cause.message}"
  | invalidSql cause => s!"Invalid SQL: {cause.message}"
  | unknownDatabase name => s!"Unknown database: {name}"
  | unknownNode name => s!"Unknown node: {name}"
  | nodeQuery cause => cause.message
  | alreadyProcessed id state => s!"Query {id} already processed, state: {state.name}"
  | results cause => cause.message
  | store cause => cause.message

/-- All that queries are run with. -/
structure QueryService (σ : Type) where
  store : Store
  /-- Where results are kept. -/
  results : ResultsBackend
  /-- Files, clock and databases. -/
  environment : Environment σ

namespace QueryService

variable {σ γ : Type}

/-- The service when the clock has been read. -/
def readClock (service : QueryService σ) : Instant × QueryService σ :=
  let (now, environment) := service.environment.readClock
  (now, { service with environment := environment })

/-- The columns of a result by their description. -/
def resultColumns (classify : String → Option NativeTypeBucket)
    (description : List CursorColumn) : List Column :=
  description.map fun column =>
    ⟨column.name, ColumnType.ofBucket (column.type.bind classify)⟩

/-- Runs one statement, on a connection of its own. -/
def runStatement (drivers : Drivers (Environment σ) γ) (uri sql : String)
    (environment : Environment σ) : Except SourceError StatementResults × Environment σ :=
  match drivers.connect uri environment with
  | (.error error, environment) => (.error error, environment)
  | (.ok connection, environment) =>
      match drivers.execute connection sql environment with
      | (.error error, environment) => (.error error, environment)
      | (.ok cursor, environment) =>
          let columns := resultColumns (drivers.classify connection) cursor.description
          (cursor.collect.map fun rows => ⟨sql, columns, rows, rows.length⟩, environment)

/-- Runs statements in order, up to the first that fails. -/
def runStatements (drivers : Drivers (Environment σ) γ) (uri : String) :
    List String → Environment σ → Except QueryError QueryResults × Environment σ
  | [], environment => (.ok [], environment)
  | sql :: rest, environment =>
      match runStatement drivers uri sql environment with
      | (.error error, environment) => (.error (.statement sql error), environment)
      | (.ok result, environment) =>
          let (results, environment) := runStatements drivers uri rest environment
          (results.map (result :: ·), environment)

/-- Runs the text of a query against a database of the catalog. -/
def runText (drivers : Drivers (Environment σ) γ) (catalog : Catalog) (database text : String)
    (environment : Environment σ) : Except QueryError QueryResults × Environment σ :=
  match catalog.databases.find? database with
  | none => (.error (.unknownDatabase database), environment)
  | some database =>
      match Sql.splitStatements text with
      | .error error => (.error (.invalidSql error), environment)
      | .ok statements => runStatements drivers database.uri statements environment

/-- Runs a query and settles how it ended; nothing is recorded yet. -/
def settle (drivers : Drivers (Environment σ) γ) (query : Query) (service : QueryService σ) :
    QueryWithResults × QueryService σ :=
  let (scheduled, service) := service.readClock
  let (started, service) := service.readClock
  let (outcome, environment) :=
    runText drivers service.store.committed query.database query.submittedQuery
      service.environment
  let (finished, service) := { service with environment := environment }.readClock
  let query :=
    { query with
      scheduled := some scheduled
      started := some started
      finished := some finished
      executedQuery := some query.submittedQuery }
  match outcome with
  | .ok results =>
      (⟨{ query with state := .finished, progress := .ofNat 1 }, results, []⟩, service)
  | .error error => (⟨{ query with state := .failed }, [], [error.message]⟩, service)

/-- Records a query in the catalog. -/
def recordQuery (query : Query) (service : QueryService σ) :
    Except StoreError Unit × QueryService σ :=
  let session := service.store.begin.push (.putQuery query)
  let (result, store, environment) := service.store.commit session service.environment
  (result.map fun _ => (), { service with store := store, environment := environment })

/-- Keeps the results of a query. -/
def keepResults (query : Query) (results : QueryResults) (service : QueryService σ) :
    Except BackendError Unit × QueryService σ :=
  let environment := service.environment
  let text := (Codec.ofQueryResults results).compact
  let (result, backend, files) :=
    service.results.add query.id.format text environment.now environment.files
  (result, { service with
    results := backend, environment := { environment with files := files } })

/-- Runs a pending query and records how it ended. -/
def process (drivers : Drivers (Environment σ) γ) (query : Query) (service : QueryService σ) :
    Except QueryError QueryWithResults × QueryService σ :=
  if query.state ≠ .pending then
    (.error (.alreadyProcessed query.id query.state), service)
  else
    let (processed, service) := settle drivers query service
    match recordQuery processed.query service with
    | (.error error, service) => (.error (.store error), service)
    | (.ok (), service) =>
        match keepResults processed.query processed.results service with
        | (.error error, service) => (.error (.results error), service)
        | (.ok (), service) => (.ok processed, service)

/-- Makes a query and runs it. -/
def submit (drivers : Drivers (Environment σ) γ) (database text : String)
    (service : QueryService σ) : Except QueryError QueryWithResults × QueryService σ :=
  let (id, environment) := service.environment.newId
  process drivers (.new id database text) { service with environment := environment }

end QueryService

end MetricCatalog
