/-
# Processing a query

A pending query ends in one of two ways. Either each of its statements has its
results, or it has failed and there is nothing but the complaint. What is
answered, what the catalog keeps and what the results backend keeps agree in both,
whatever the drivers do.
-/

import MetricCatalog.Proofs.Catalog.World
import MetricCatalog.Proofs.Files.Change
import MetricCatalog.Proofs.Query.Calls
import MetricCatalog.Proofs.Sql.Division

namespace MetricCatalog

variable {σ γ : Type}

/-! ## Keeping texts -/

/-- What was kept under a key is found there. -/
theorem ResultsBackend.get_add {backend next : ResultsBackend} {key text : String} {now : Instant}
    {files after : FileTree} (hadd : backend.add key text now files = (.ok (), next, after)) :
    next.get key after = .ok (some text) := by
  cases backend with
  | memory entries =>
      cases hadd
      exact congrArg Except.ok (KeyMap.find?_insert_self entries key text)
  | directory path =>
      simp only [add] at hadd
      split at hadd
      · cases hadd
      · split at hadd
        · cases hadd
        · rename_i hwrite
          cases hadd
          have hread := FileTree.readText_of_read (FileTree.read_write hwrite)
          unfold get
          simp only
          rw [hread]

/-! ## Recording a query -/

theorem Store.commit_putQuery {store next : Store} {query : Query}
    {environment after : Environment σ} {catalog : Catalog}
    (hcommit : store.commit (store.begin.push (.putQuery query)) environment =
      (.ok catalog, next, after)) : next.committed.queries.find? query.id = some query := by
  have hflush : (store.begin.push (.putQuery query)).flush =
      (.ok (), ⟨{ store.committed with
        queries := store.committed.queries.insert query.id query }, [], [.putQuery query]⟩) := rfl
  simp only [commit, hflush] at hcommit
  rcases store.commitLog_cases [.putQuery query] environment with
    ⟨found, hreplay, -, hnext⟩ | ⟨error, herror, -⟩
  · rw [hcommit] at hnext
    change next = _ at hnext
    rw [hnext]
    cases hreplay
    exact KeyMap.find?_insert_self _ query.id query
  · rw [hcommit] at herror
    cases herror

/-! ## The same with notes -/

theorem Store.commitLog_noting (store : Store) (log : List Mutation)
    (environment : Environment σ) (calls : List DriverCall) :
    store.commitLog log (environment.noting calls) =
      ((store.commitLog log environment).1, (store.commitLog log environment).2.1,
        (store.commitLog log environment).2.2.noting calls) := by
  unfold commitLog
  cases store.replay log with
  | error error => rfl
  | ok catalog =>
      cases store.storage with
      | none => rfl
      | some storage =>
          simp only [Environment.noting]
          generalize storage.write environment.now environment.files catalog = written
          obtain ⟨result, files⟩ := written
          cases result <;> rfl

theorem Store.commit_noting (store : Store) (session : Session) (environment : Environment σ)
    (calls : List DriverCall) :
    store.commit session (environment.noting calls) =
      ((store.commit session environment).1, (store.commit session environment).2.1,
        (store.commit session environment).2.2.noting calls) := by
  unfold commit
  generalize session.flush = flushed
  obtain ⟨result, session⟩ := flushed
  cases result with
  | error error => rfl
  | ok => exact store.commitLog_noting session.log environment calls

namespace QueryService

/-- The service with notes. -/
def noting (service : QueryService σ) (calls : List DriverCall) :
    QueryService (σ × List DriverCall) :=
  { service with environment := service.environment.noting calls }

/-- What running the text of a query comes to, and the calls it takes. -/
inductive TextRuns (catalog : Catalog) (database text : String) :
    Except QueryError QueryResults → List DriverCall → Prop
  | unknown (hdatabase : catalog.databases.find? database = none) :
      TextRuns catalog database text (.error (.unknownDatabase database)) []
  | invalid {error : Sql.LexError} (hsplit : Sql.splitStatements text = .error error) :
      TextRuns catalog database text (.error (.invalidSql error)) []
  | runs {found : Database} {statements : List String}
      {outcome : Except QueryError QueryResults} {calls : List DriverCall}
      (hdatabase : catalog.databases.find? database = some found)
      (hsplit : Sql.splitStatements text = .ok statements)
      (hruns : Runs found.uri statements outcome calls) :
      TextRuns catalog database text outcome calls

theorem runText_noting (drivers : Drivers (Environment σ) γ) (catalog : Catalog)
    (database text : String) (environment : Environment σ) (calls : List DriverCall) :
    ∃ made, runText drivers.noting catalog database text (environment.noting calls) =
        ((runText drivers catalog database text environment).1,
          (runText drivers catalog database text environment).2.noting (calls ++ made)) ∧
      TextRuns catalog database text (runText drivers catalog database text environment).1
        made := by
  unfold runText
  cases hdatabase : catalog.databases.find? database with
  | none => exact ⟨[], by rw [List.append_nil], .unknown hdatabase⟩
  | some found =>
      cases hsplit : Sql.splitStatements text with
      | error error => exact ⟨[], by rw [List.append_nil], .invalid hsplit⟩
      | ok statements =>
          obtain ⟨made, hnoting, hruns⟩ :=
            runStatements_noting drivers found.uri statements environment calls
          exact ⟨made, hnoting, .runs hdatabase hsplit hruns⟩

/-- A query that has been run, at three readings of the clock. -/
def ended (query : Query) (scheduled started finished : Instant) :
    Except QueryError QueryResults → QueryWithResults :=
  let timed :=
    { query with
      scheduled := some scheduled
      started := some started
      finished := some finished
      executedQuery := some query.submittedQuery }
  fun
    | .ok results => ⟨{ timed with state := .finished, progress := .ofNat 1 }, results, []⟩
    | .error error => ⟨{ timed with state := .failed }, [], [error.message]⟩

theorem settle_eq (drivers : Drivers (Environment σ) γ) (query : Query)
    (service : QueryService σ) :
    settle drivers query service =
      let first := service.environment.readClock
      let second := first.2.readClock
      let text := runText drivers service.store.committed query.database query.submittedQuery
        second.2
      let last := text.2.readClock
      (ended query first.1 second.1 last.1 text.1, { service with environment := last.2 }) := by
  unfold settle
  simp only [readClock]
  generalize runText drivers _ _ _ _ = text
  obtain ⟨outcome, environment⟩ := text
  cases outcome <;> rfl

theorem settle_noting (drivers : Drivers (Environment σ) γ) (query : Query)
    (service : QueryService σ) (calls : List DriverCall) :
    ∃ made outcome scheduled started finished,
      settle drivers.noting query (service.noting calls) =
        ((settle drivers query service).1,
          (settle drivers query service).2.noting (calls ++ made)) ∧
      (settle drivers query service).1 = ended query scheduled started finished outcome ∧
      TextRuns service.store.committed query.database query.submittedQuery outcome made := by
  obtain ⟨made, hnoting, hruns⟩ := runText_noting drivers service.store.committed query.database
    query.submittedQuery service.environment.readClock.2.readClock.2 calls
  refine ⟨made, _, _, _, _, ?_, by rw [settle_eq], hruns⟩
  rw [settle_eq, settle_eq]
  have hclock : (service.noting calls).environment.readClock.2.readClock.2 =
      service.environment.readClock.2.readClock.2.noting calls := rfl
  simp only [hclock]
  rw [show (service.noting calls).store = service.store from rfl, hnoting]
  rfl

theorem recordQuery_noting (query : Query) (service : QueryService σ) (calls : List DriverCall) :
    recordQuery query (service.noting calls) =
      ((recordQuery query service).1, (recordQuery query service).2.noting calls) := by
  have hcommit := service.store.commit_noting (service.store.begin.push (.putQuery query))
    service.environment calls
  unfold recordQuery
  simp only [noting]
  rw [hcommit]

theorem keepResults_noting (query : Query) (results : QueryResults) (service : QueryService σ)
    (calls : List DriverCall) :
    keepResults query results (service.noting calls) =
      ((keepResults query results service).1,
        (keepResults query results service).2.noting calls) := by
  unfold keepResults
  generalize (Codec.ofQueryResults results).compact = text
  generalize query.id.format = key
  rfl

theorem recordQuery_eq_ok {query : Query} {service next : QueryService σ}
    (hrecord : recordQuery query service = (.ok (), next)) :
    next.store.committed.queries.find? query.id = some query := by
  simp only [recordQuery] at hrecord
  cases hcommit : service.store.commit (service.store.begin.push (.putQuery query))
    service.environment with
  | mk result rest =>
      rw [hcommit] at hrecord
      cases result with
      | error => cases hrecord
      | ok catalog =>
          cases hrecord
          exact Store.commit_putQuery hcommit

theorem keepResults_eq_ok {query : Query} {results : QueryResults} {service next : QueryService σ}
    (hkeep : keepResults query results service = (.ok (), next)) :
    next.store = service.store ∧
      next.results.get query.id.format next.environment.files =
        .ok (some (Codec.ofQueryResults results).compact) := by
  unfold keepResults at hkeep
  cases hadd : service.results.add query.id.format (Codec.ofQueryResults results).compact
    service.environment.now service.environment.files with
  | mk result rest =>
      simp only [hadd] at hkeep
      cases hkeep
      exact ⟨rfl, ResultsBackend.get_add hadd⟩

/-! ## The outcome -/

/-- What there is after a query has been processed, and what the drivers were called for. -/
structure Processed (query : Query) (service : QueryService σ) (processed : QueryWithResults)
    (next : QueryService σ) (calls : List DriverCall) : Prop where
  outcome :
    (processed.query.state = .finished ∧ processed.query.progress = .ofNat 1 ∧
      processed.errors = [] ∧
      ∃ statements, Sql.splitStatements query.submittedQuery = .ok statements ∧
        processed.results.map (·.sql) = statements ∧
        (∀ result ∈ processed.results, result.rowCount = result.rows.length) ∧
        executedIn calls = statements ∧ ∀ call ∈ calls, call.succeeded = true) ∨
    (processed.query.state = .failed ∧ processed.results = [] ∧
      ∃ error, processed.errors = [error])
  /-- The statements are handed over in their order. -/
  executed : ∀ statements, Sql.splitStatements query.submittedQuery = .ok statements →
    executedIn calls <+: statements
  /-- The first call that fails is the last one. -/
  stopped : ∀ call ∈ calls.dropLast, call.succeeded = true
  unknown : service.store.committed.databases.find? query.database = none → calls = []
  invalid : ∀ error, Sql.splitStatements query.submittedQuery = .error error → calls = []
  id : processed.query.id = query.id
  executedQuery : processed.query.executedQuery = some query.submittedQuery
  scheduled : processed.query.scheduled.isSome
  started : processed.query.started.isSome
  finished : processed.query.finished.isSome
  recorded : next.store.committed.queries.find? query.id = some processed.query
  kept : next.results.get query.id.format next.environment.files =
    .ok (some (Codec.ofQueryResults processed.results).compact)

/-- A processed query is recorded first, and its results are kept behind it. -/
theorem process_eq_ok {drivers : Drivers (Environment σ) γ} {query : Query}
    {service next : QueryService σ} {processed : QueryWithResults}
    (hpending : query.state = .pending)
    (hprocess : process drivers query service = (.ok processed, next)) :
    (settle drivers query service).1 = processed ∧
      ∃ middle, recordQuery processed.query (settle drivers query service).2 = (.ok (), middle) ∧
        keepResults processed.query processed.results middle = (.ok (), next) := by
  unfold process at hprocess
  rw [if_neg (by simpa using hpending)] at hprocess
  generalize settle drivers query service = settled at hprocess ⊢
  obtain ⟨found, service⟩ := settled
  simp only at hprocess ⊢
  cases hrecord : recordQuery found.query service with
  | mk result middle =>
      simp only [hrecord] at hprocess
      cases result with
      | error => cases hprocess
      | ok =>
          simp only at hprocess
          cases hkeep : keepResults found.query found.results middle with
          | mk result last =>
              simp only [hkeep] at hprocess
              cases result with
              | error => cases hprocess
              | ok =>
                  cases hprocess
                  exact ⟨rfl, middle, hrecord, hkeep⟩

theorem process_noting {drivers : Drivers (Environment σ) γ} {query : Query}
    {service next : QueryService σ} {processed : QueryWithResults} {calls made : List DriverCall}
    (hpending : query.state = .pending)
    (hprocess : process drivers query service = (.ok processed, next))
    (hsettle : settle drivers.noting query (service.noting calls) =
      ((settle drivers query service).1, (settle drivers query service).2.noting made)) :
    process drivers.noting query (service.noting calls) = (.ok processed, next.noting made) := by
  obtain ⟨rfl, middle, hrecord, hkeep⟩ := process_eq_ok hpending hprocess
  unfold process
  rw [if_neg (by simpa using hpending), hsettle]
  simp only [recordQuery_noting, hrecord, keepResults_noting, hkeep]

theorem TextRuns.processed {query : Query} {service next : QueryService σ}
    {outcome : Except QueryError QueryResults} {calls : List DriverCall}
    (hruns : TextRuns service.store.committed query.database query.submittedQuery outcome calls)
    (scheduled started finished : Instant)
    (hrecorded : next.store.committed.queries.find? query.id =
      some (ended query scheduled started finished outcome).query)
    (hkept : next.results.get query.id.format next.environment.files =
      .ok (some (Codec.ofQueryResults
        (ended query scheduled started finished outcome).results).compact)) :
    Processed query service (ended query scheduled started finished outcome) next calls where
  outcome := by
    cases hruns with
    | unknown | invalid => exact Or.inr ⟨rfl, rfl, _, rfl⟩
    | @runs found statements _ _ _ hsplit hruns =>
        cases outcome with
        | error error => exact Or.inr ⟨rfl, rfl, _, rfl⟩
        | ok results =>
            obtain ⟨hsql, hcounts, hexecuted, hcalls⟩ := hruns.of_ok rfl
            exact Or.inl ⟨rfl, rfl, rfl, statements, hsplit, hsql, hcounts, hexecuted, hcalls⟩
  executed := by
    intro statements hstatements
    cases hruns with
    | unknown | invalid => exact List.nil_prefix
    | runs _ hsplit hruns =>
        cases hsplit.symm.trans hstatements
        exact hruns.executedIn_prefix
  stopped := by
    cases hruns with
    | unknown | invalid => simp
    | runs _ _ hruns => exact hruns.succeeded_of_mem_dropLast
  unknown := by
    intro hunknown
    cases hruns with
    | unknown | invalid => rfl
    | runs hdatabase _ _ => cases hdatabase.symm.trans hunknown
  invalid := by
    intro error hinvalid
    cases hruns with
    | unknown | invalid => rfl
    | runs _ hsplit _ => cases hsplit.symm.trans hinvalid
  id := by cases outcome <;> rfl
  executedQuery := by cases outcome <;> rfl
  scheduled := by cases outcome <;> rfl
  started := by cases outcome <;> rfl
  finished := by cases outcome <;> rfl
  recorded := hrecorded
  kept := hkept

/-- A query that is not pending is refused and nothing changes. If a pending one is processed, it
has finished or failed, and all that there is of it says the same. -/
theorem process_outcome (drivers : Drivers (Environment σ) γ) (query : Query)
    (service : QueryService σ) :
    (query.state ≠ .pending → process drivers query service =
      (.error (.alreadyProcessed query.id query.state), service)) ∧
    (query.state = .pending → ∀ processed next,
      process drivers query service = (.ok processed, next) →
      ∃ calls, process drivers.noting query (service.noting []) =
          (.ok processed, next.noting calls) ∧
        Processed query service processed next calls) := by
  constructor
  · intro hstate
    unfold process
    rw [if_pos hstate]
  · intro hpending processed next hprocess
    obtain ⟨made, outcome, scheduled, started, finished, hsettle, hended, hruns⟩ :=
      settle_noting drivers query service []
    obtain ⟨hprocessed, middle, hrecord, hkeep⟩ := process_eq_ok hpending hprocess
    obtain ⟨hstore, hkept⟩ := keepResults_eq_ok hkeep
    have hrecorded := recordQuery_eq_ok hrecord
    rw [← hstore] at hrecorded
    rw [hended] at hprocessed
    have hid : processed.query.id = query.id := by
      rw [← hprocessed]
      cases outcome <;> rfl
    rw [hid] at hrecorded hkept
    refine ⟨made, process_noting hpending hprocess hsettle, ?_⟩
    subst hprocessed
    exact hruns.processed scheduled started finished hrecorded hkept

/-- Drivers of a database that answers every statement with one empty row. -/
def plainDrivers : Drivers (Environment Unit) Unit where
  connect _ environment := (.ok (), environment)
  introspect _ _ _ environment := (.answered (.ok []), environment)
  execute _ _ environment := (.ok ⟨[], [.ok []]⟩, environment)
  classify _ _ := none
  columnType _ _ := none

/-- A service with one database, on the drivers above. -/
def plainService : QueryService Unit where
  store :=
    { committed :=
        { Catalog.empty with
          databases := KeyMap.empty.insert "a" ⟨default, "a", "b:", none, default, default⟩ }
      storage := none }
  results := .inMemory
  environment := ⟨default, default, 0, ()⟩

theorem runText_plain (environment : Environment Unit) :
    runText plainDrivers plainService.store.committed "a" "';'; --;" environment =
      (.ok [⟨"';'", [], [[]], 1⟩], environment) := by
  have hsplit : Sql.splitStatements "';'; --;" = .ok ["';'"] := by
    rw [Sql.splitStatements, Sql.cuts_hiddenRuns.splitText_joined (by decide) (by decide)]
    rfl
  have hdatabase : plainService.store.committed.databases.find? "a" =
      some ⟨default, "a", "b:", none, default, default⟩ := rfl
  simp only [runText, hdatabase, hsplit]
  rfl

theorem process_outcome_plainService :
    ∃ processed next,
      process plainDrivers (.new default "a" "';'; --;") plainService = (.ok processed, next) ∧
      ∃ calls, process plainDrivers.noting (.new default "a" "';'; --;")
          (plainService.noting []) = (.ok processed, next.noting calls) ∧
        Processed (.new default "a" "';'; --;") plainService processed next calls := by
  have hprocess : ∃ processed next,
      process plainDrivers (.new default "a" "';'; --;") plainService = (.ok processed, next) := by
    unfold process
    rw [if_neg (by decide), settle_eq]
    simp only [Query.new, runText_plain]
    exact ⟨_, _, rfl⟩
  obtain ⟨processed, next, hprocess⟩ := hprocess
  exact ⟨processed, next, hprocess,
    (process_outcome plainDrivers _ plainService).2 rfl processed next hprocess⟩

end QueryService

end MetricCatalog
