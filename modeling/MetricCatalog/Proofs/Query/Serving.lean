/-
# Queries beside other sessions

Any number of calls process queries on one store, and any other sessions work on
it at the same time. A call looks at the latest catalog once and runs its
statements one after another. How the query ended is recorded in a session of
its own, and the results are kept when the record is in the catalog.

The steps of all calls and sessions interleave as they like. Between two steps of
a call the databases, the files and the clock may have changed in any way, and
the results may fail to be kept for any reason.
-/

import MetricCatalog.Proofs.Query.Processing

namespace MetricCatalog

open QueryService (ended runStatement runStatements runText settle recordQuery keepResults process)

/-- Where the processing of a query stands. -/
inductive QueryCall
  /-- It has not begun. -/
  | absent
  /-- It has been called with a pending query. -/
  | called (query : Query) (scheduled started : Instant)
  /-- It runs statements; some are left, and of the others there are results. -/
  | running (query : Query) (scheduled started : Instant) (uri : String) (left : List String)
      (results : QueryResults)
  /-- The query has ended, and its record is on the way to the catalog. -/
  | recording (processed : QueryWithResults)
  /-- The record is in the catalog, and the results are to be kept. -/
  | keeping (processed : QueryWithResults)
  | returned (result : Except QueryError QueryWithResults)

/-- Calls that process queries, and other sessions on the same store. Each call has a session. -/
structure Serving (ι κ : Type) where
  world : World (ι ⊕ κ)
  call : ι → QueryCall

/-- The database that statements are run against, and the statements. -/
def QueryService.lookUp (catalog : Catalog) (database text : String) :
    Except QueryError (String × List String) :=
  match catalog.databases.find? database with
  | none => .error (.unknownDatabase database)
  | some database =>
      match Sql.splitStatements text with
      | .error error => .error (.invalidSql error)
      | .ok statements => .ok (database.uri, statements)

/-- A query that has ended is the same query. -/
theorem QueryService.ended_id (query : Query) (scheduled started finished : Instant)
    (outcome : Except QueryError QueryResults) :
    (ended query scheduled started finished outcome).query.id = query.id := by
  cases outcome <;> rfl

namespace Serving

variable {ι κ : Type}

/-- No call has begun, and no session. -/
def ofStore (store : Store) : Serving ι κ := ⟨.ofStore store, fun _ => .absent⟩

/-- Calls and sessions after a call has come further. -/
def put [DecidableEq ι] (serving : Serving ι κ) (i : ι) (call : QueryCall) : Serving ι κ :=
  { serving with call := Function.update serving.call i call }

/-- Something that happens while queries are processed. -/
inductive Event (ι κ : Type)
  /-- Something happened to the store or to a session. -/
  | stored (event : World.Event (ι ⊕ κ))
  /-- A pending query was given to a call. -/
  | called (i : ι) (query : Query)
  /-- A call has come further without a change to its session. -/
  | worked (i : ι)
  /-- The results of a query were added to a backend, which is then as it is given here. -/
  | kept (i : ι) (backend : ResultsBackend) (files : FileTree)

/-- The call that an event is about. -/
def Event.call? : Event ι κ → Option ι
  | .stored event => event.session?.bind Sum.getLeft?
  | .called i _ | .worked i | .kept i _ _ => some i

/-- What a call does with its session: it begins it, puts the query into it and commits it. -/
inductive Records (session : ι ⊕ κ) (query : Query) (stage : Stage) : World.Event (ι ⊕ κ) → Prop
  | begin (catalog : Catalog) : Records session query stage (.began session catalog)
  | push {view : Catalog} (hstage : stage = .active (.start view)) :
      Records session query stage (.pushed session (.putQuery query))
  | request {view : Catalog}
      (hstage : stage = .active ((Session.start view).push (.putQuery query))) :
      Records session query stage (.requested session)
  | refuse {view : Catalog}
      (hstage : stage = .active ((Session.start view).push (.putQuery query)))
      (error : CatalogError) : Records session query stage (.refused session error)
  | enter : Records session query stage (.entered session)
  | settle (log : List Mutation) (result : Except StoreError Catalog) :
      Records session query stage (.settled session log result)

/-- Where a call stands after the commit of its record. -/
def committed (processed : QueryWithResults) : Except StoreError Catalog → QueryCall
  | .ok _ => .keeping processed
  | .error error => .returned (.error (.store error))

/-- Where a call stands that records a query, after something has happened to its session. -/
def after (processed : QueryWithResults) : World.Event (ι ⊕ κ) → QueryCall
  | .settled _ _ result => committed processed result
  | .refused _ error => committed processed (.error (.conflict error))
  | _ => .recording processed

variable [DecidableEq ι] [DecidableEq κ]

/-- A single step of a call, or of a session that is not one of a call. -/
inductive Step (serving : Serving ι κ) : Event ι κ → Serving ι κ → Prop
  | outside {event : World.Event (ι ⊕ κ)} {next : World (ι ⊕ κ)}
      (hstep : World.Step serving.world event next) (hother : ∀ i, event.session? ≠ some (.inl i)) :
      Step serving (.stored event) { serving with world := next }
  | refuse {i : ι} (hcall : serving.call i = .absent) {query : Query}
      (hstate : query.state ≠ .pending) :
      Step serving (.worked i)
        (serving.put i (.returned (.error (.alreadyProcessed query.id query.state))))
  | call {i : ι} (hcall : serving.call i = .absent) {query : Query}
      (hstate : query.state = .pending) (scheduled started : Instant) :
      Step serving (.called i query) (serving.put i (.called query scheduled started))
  | look {i : ι} {query : Query} {scheduled started : Instant} {uri : String}
      {statements : List String} (hcall : serving.call i = .called query scheduled started)
      (hfree : serving.world.IsFree)
      (hfound : QueryService.lookUp serving.world.store.committed query.database
        query.submittedQuery = .ok (uri, statements)) :
      Step serving (.worked i) (serving.put i (.running query scheduled started uri statements []))
  | miss {i : ι} {query : Query} {scheduled started : Instant} {error : QueryError}
      (hcall : serving.call i = .called query scheduled started) (hfree : serving.world.IsFree)
      (hfound : QueryService.lookUp serving.world.store.committed query.database
        query.submittedQuery = .error error) (finished : Instant) :
      Step serving (.worked i)
        (serving.put i (.recording (ended query scheduled started finished (.error error))))
  | execute {i : ι} {query : Query} {scheduled started : Instant} {uri sql : String}
      {left : List String} {results : QueryResults} {result : StatementResults} {σ γ : Type}
      {drivers : Drivers (Environment σ) γ} {environment : Environment σ}
      (hcall : serving.call i = .running query scheduled started uri (sql :: left) results)
      (hresult : (runStatement drivers uri sql environment).1 = .ok result) :
      Step serving (.worked i)
        (serving.put i (.running query scheduled started uri left (results ++ [result])))
  | fail {i : ι} {query : Query} {scheduled started : Instant} {uri sql : String}
      {left : List String} {results : QueryResults} {error : SourceError} {σ γ : Type}
      {drivers : Drivers (Environment σ) γ} {environment : Environment σ}
      (hcall : serving.call i = .running query scheduled started uri (sql :: left) results)
      (hresult : (runStatement drivers uri sql environment).1 = .error error)
      (finished : Instant) :
      Step serving (.worked i)
        (serving.put i (.recording
          (ended query scheduled started finished (.error (.statement sql error)))))
  | finish {i : ι} {query : Query} {scheduled started : Instant} {uri : String}
      {results : QueryResults}
      (hcall : serving.call i = .running query scheduled started uri [] results)
      (finished : Instant) :
      Step serving (.worked i)
        (serving.put i (.recording (ended query scheduled started finished (.ok results))))
  | record {i : ι} {processed : QueryWithResults} {event : World.Event (ι ⊕ κ)}
      {next : World (ι ⊕ κ)} (hcall : serving.call i = .recording processed)
      (hstep : World.Step serving.world event next)
      (hrecords : Records (.inl i) processed.query (serving.world.stage (.inl i)) event) :
      Step serving (.stored event) ({ serving with world := next }.put i (after processed event))
  | keep {i : ι} {processed : QueryWithResults} {backend later : ResultsBackend} {now : Instant}
      {files after : FileTree} (hcall : serving.call i = .keeping processed)
      (hadd : backend.add processed.query.id.format
        (Codec.ofQueryResults processed.results).compact now files = (.ok (), later, after)) :
      Step serving (.kept i later after) (serving.put i (.returned (.ok processed)))
  | lose {i : ι} {processed : QueryWithResults} (hcall : serving.call i = .keeping processed)
      (error : BackendError) :
      Step serving (.worked i) (serving.put i (.returned (.error (.results error))))

/-- The runs from a first state: what happened, and the state it led to. -/
inductive Run (first : Serving ι κ) : List (Event ι κ) → Serving ι κ → Prop
  | nil : Run first [] first
  | step {events : List (Event ι κ)} {serving next : Serving ι κ} {event : Event ι κ}
      (prior : Run first events serving) (hstep : Step serving event next) :
      Run first (events ++ [event]) next

/-! ## One call with nothing in between -/

variable {first middle last serving next : Serving ι κ}

omit [DecidableEq κ] in
@[simp] theorem world_put (serving : Serving ι κ) (i : ι) (call : QueryCall) :
    (serving.put i call).world = serving.world := rfl

omit [DecidableEq κ] in
@[simp] theorem call_put_self (serving : Serving ι κ) (i : ι) (call : QueryCall) :
    (serving.put i call).call i = call := by
  simp [put]

omit [DecidableEq κ] in
theorem call_put_of_ne (serving : Serving ι κ) {i j : ι} (hne : j ≠ i) (call : QueryCall) :
    (serving.put i call).call j = serving.call j := by
  simp [put, hne]

omit [DecidableEq κ] in
@[simp] theorem put_put (serving : Serving ι κ) (i : ι) (earlier later : QueryCall) :
    (serving.put i earlier).put i later = serving.put i later := by
  simp [put]

theorem Run.trans {events more : List (Event ι κ)} (hfirst : Run first events middle)
    (hsecond : Run middle more last) : Run first (events ++ more) last := by
  induction hsecond with
  | nil => rwa [List.append_nil]
  | step _ hstep ih =>
      rw [← List.append_assoc]
      exact ih.step hstep

theorem runText_eq {σ γ : Type} (drivers : Drivers (Environment σ) γ) (catalog : Catalog)
    (database text : String) (environment : Environment σ) :
    runText drivers catalog database text environment =
      match QueryService.lookUp catalog database text with
      | .error error => (.error error, environment)
      | .ok (uri, statements) => runStatements drivers uri statements environment := by
  unfold runText QueryService.lookUp
  cases catalog.databases.find? database with
  | none => rfl
  | some found => cases Sql.splitStatements text <;> rfl

/-- The statements that are left are run one by one. -/
theorem exists_run_statements {σ γ : Type} (drivers : Drivers (Environment σ) γ)
    (environment : Environment σ) {i : ι} {query : Query} {scheduled started : Instant}
    {uri : String} {left : List String} {results : QueryResults}
    (hcall : serving.call i = .running query scheduled started uri left results)
    (finished : Instant) :
    ∃ events, Run serving events (serving.put i (.recording (ended query scheduled started finished
      ((runStatements drivers uri left environment).1.map (results ++ ·))))) ∧
      ∀ event ∈ events, event.call? = some i := by
  induction left generalizing serving results environment with
  | nil =>
      have hstep := Run.nil.step (.finish hcall finished)
      rw [runStatements]
      simp only [Except.map, List.append_nil]
      exact ⟨_, hstep, by simp [Event.call?]⟩
  | cons sql left ih =>
      rw [runStatements]
      cases hresult : runStatement drivers uri sql environment with
      | mk outcome after =>
          have houtcome := congrArg Prod.fst hresult
          cases outcome with
          | error error =>
              exact ⟨_, Run.nil.step (.fail hcall houtcome finished), by simp [Event.call?]⟩
          | ok result =>
              have hstep := Run.nil.step (.execute hcall houtcome)
              obtain ⟨events, hrun, habout⟩ := ih after (call_put_self serving i _)
              rw [put_put] at hrun
              have hsame : (runStatements drivers uri left after).1.map (results ++ [result] ++ ·) =
                  ((runStatements drivers uri left after).1.map (result :: ·)).map
                    (results ++ ·) := by
                cases (runStatements drivers uri left after).1 with
                | error error => rfl
                | ok others => simp [Except.map]
              rw [hsame] at hrun
              exact ⟨_, hstep.trans hrun, by simpa [Event.call?] using habout⟩

/-- The steps up to the end of a commit leave the call where it stands. -/
theorem Step.recording {i : ι} {processed : QueryWithResults} {event : World.Event (ι ⊕ κ)}
    {world : World (ι ⊕ κ)} (hstep : World.Step serving.world event world)
    (hcall : serving.call i = .recording processed)
    (hrecords : Records (.inl i) processed.query (serving.world.stage (.inl i)) event)
    (hafter : after processed event = .recording processed) :
    Step serving (.stored event) { serving with world := world } := by
  have hrecord := Step.record hcall hstep hrecords
  rw [hafter, ← hcall, put, Function.update_eq_self] at hrecord
  exact hrecord

theorem Run.recording {events : List (Event ι κ)} {i : ι} {processed : QueryWithResults}
    {stage later : Stage} {event : World.Event (ι ⊕ κ)}
    (hrun : Run first events { serving with world := serving.world.put (.inl i) stage })
    (hstep : World.Step (serving.world.put (.inl i) stage) event
      ((serving.world.put (.inl i) stage).put (.inl i) later))
    (hcall : serving.call i = .recording processed)
    (hrecords : Records (.inl i) processed.query stage event)
    (hafter : after processed event = .recording processed) :
    Run first (events ++ [.stored event])
      { serving with world := serving.world.put (.inl i) later } := by
  have hlater := hrun.step (.recording hstep hcall
    (by rwa [World.stage_put_self]) hafter)
  rwa [World.put, World.put, Function.update_idem] at hlater

/-- A query that has ended is recorded in a session of its own, with one commit. -/
theorem exists_run_record {σ : Type} (environment : Environment σ) {i : ι}
    {processed : QueryWithResults} (hcall : serving.call i = .recording processed)
    (hfree : serving.world.IsFree) (hstage : serving.world.stage (.inl i) = .absent) :
    let commit := serving.world.store.commit
      (serving.world.store.begin.push (.putQuery processed.query)) environment
    ∃ events, Run serving events
      ({ serving with world := { serving.world with store := commit.2.1 }.put (.inl i) .over }.put i
        (committed processed commit.1)) ∧ ∀ event ∈ events, event.call? = some i := by
  -- The stages of the session, one behind the other; the call stands where it is until the last.
  have hself : ∀ stage, (serving.world.put (.inl i) stage).stage (.inl i) = stage :=
    fun stage => World.stage_put_self serving.world (.inl i) stage
  have hbegin := Run.nil.step (.recording (.begin hfree hstage) hcall (.begin _) rfl)
  have hpush := hbegin.recording (.push (hself _) _) hcall (.push rfl) rfl
  have hrequest := hpush.recording (.request (hself _) rfl) hcall (.request rfl) rfl
  have henter := hrequest.recording (.enter (hfree.put _ nofun) (hself _)) hcall .enter rfl
  have hsettle := henter.step (.record hcall (.settle (hself _) environment) (.settle ..))
  rw [World.put, World.put] at hsettle
  simp only [Function.update_idem] at hsettle
  exact ⟨_, hsettle, by simp [Event.call?, World.Event.session?]⟩

/-- A pending query is looked up and its statements are run, until it has ended. -/
theorem exists_run_settle {σ γ : Type} (drivers : Drivers (Environment σ) γ) {query : Query}
    (service : QueryService σ) {i : ι} (hstate : query.state = .pending)
    (hstore : serving.world.store = service.store) (hfree : serving.world.IsFree)
    (hcall : serving.call i = .absent) :
    ∃ events, Run serving events (serving.put i (.recording (settle drivers query service).1)) ∧
      ∀ event ∈ events, event.call? = some i := by
  have hcalled := Run.nil.step (.call hcall hstate service.environment.readClock.1
    service.environment.readClock.2.readClock.1)
  simp only [QueryService.settle_eq]
  rw [runText_eq, ← hstore]
  cases hfound : QueryService.lookUp serving.world.store.committed query.database
      query.submittedQuery with
  | error error =>
      have hmissed := hcalled.step (.miss (call_put_self ..) hfree hfound
        service.environment.readClock.2.readClock.2.readClock.1)
      rw [put_put] at hmissed
      exact ⟨_, hmissed, by simp [Event.call?]⟩
  | ok found =>
      obtain ⟨uri, statements⟩ := found
      have hlooked := hcalled.step (.look (call_put_self ..) hfree hfound)
      obtain ⟨events, hrun, habout⟩ := exists_run_statements drivers
        service.environment.readClock.2.readClock.2
        (call_put_self (serving.put i (.called query _ _)) i _)
        (runStatements drivers uri statements
          service.environment.readClock.2.readClock.2).2.readClock.1
      have hall := hlooked.trans hrun
      rw [put_put, put_put] at hall
      have hsame : ∀ outcome : Except QueryError QueryResults,
          outcome.map (([] : QueryResults) ++ ·) = outcome := by
        rintro (error | results) <;> rfl
      rw [hsame] at hall
      exact ⟨_, hall, by simpa [Event.call?] using habout⟩

/-- A call has returned, and of the others none has come further. -/
structure Returned (serving : Serving ι κ) (i : ι) (result : Except QueryError QueryWithResults)
    (store : Store) (last : Serving ι κ) : Prop where
  call : last.call i = .returned result
  store : last.world.store = store
  isFree : last.world.IsFree
  calls : ∀ j ≠ i, last.call j = serving.call j
  stages : ∀ session ≠ .inl i, last.world.stage session = serving.world.stage session

theorem returned_put (hfree : serving.world.IsFree) (i : ι) (call : QueryCall)
    (result : Except QueryError QueryWithResults) (store : Store) :
    Returned serving i result store
      ({ serving.put i call with
        world := { serving.world with store := store }.put (.inl i) .over }.put i
          (.returned result)) where
  call := call_put_self ..
  store := rfl
  isFree := World.isFree_put (fun session _ => hfree session) nofun
  calls j hne := by
    rw [call_put_of_ne _ hne]
    exact call_put_of_ne serving hne call
  stages session hne := World.stage_put_of_ne _ hne _

/-- The results are kept with one step, or they are lost with one. -/
theorem exists_step_keep {σ : Type} {service next : QueryService σ} {i : ι}
    {processed : QueryWithResults} {outcome : Except BackendError Unit}
    (hcall : serving.call i = .keeping processed)
    (hkeep : keepResults processed.query processed.results service = (outcome, next)) :
    next.store = service.store ∧ ∃ event, event.call? = some i ∧ Step serving event
      (serving.put i (.returned ((outcome.map fun _ => processed).mapError .results))) := by
  simp only [keepResults] at hkeep
  cases hadd : service.results.add processed.query.id.format
      (Codec.ofQueryResults processed.results).compact service.environment.now
      service.environment.files with
  | mk result rest =>
      rw [hadd] at hkeep
      cases hkeep
      refine ⟨rfl, ?_⟩
      cases result with
      | error error => exact ⟨_, rfl, .lose hcall error⟩
      | ok => exact ⟨_, rfl, .keep hcall hadd⟩

/-- A call with nothing in between does what `process` does, and nothing else happens. -/
theorem exists_run_process {σ γ : Type} (drivers : Drivers (Environment σ) γ) (query : Query)
    (service : QueryService σ) {i : ι} (hstore : serving.world.store = service.store)
    (hfree : serving.world.IsFree) (hcall : serving.call i = .absent)
    (hstage : serving.world.stage (.inl i) = .absent) :
    ∃ events last, Run serving events last ∧
      Returned serving i (process drivers query service).1
        (process drivers query service).2.store last ∧
      ∀ event ∈ events, event.call? = some i := by
  unfold process
  by_cases hstate : query.state = .pending
  · obtain ⟨events, hsettle, hfirst⟩ :=
      exists_run_settle drivers service hstate hstore hfree hcall
    have hsame : (settle drivers query service).2.store = serving.world.store := by
      rw [QueryService.settle_eq, hstore]
    rw [if_neg (by simpa using hstate)]
    generalize settle drivers query service = settled at hsettle hsame ⊢
    obtain ⟨processed, settled⟩ := settled
    obtain ⟨more, hrecord, hsecond⟩ :=
      exists_run_record settled.environment (call_put_self serving i _) hfree hstage
    have hrun := hsettle.trans hrecord
    have habout : ∀ event ∈ events ++ more, event.call? = some i :=
      fun event hevent => (List.mem_append.mp hevent).elim (hfirst event) (hsecond event)
    simp only at hsame
    rw [world_put, ← hsame] at hrun
    simp only [recordQuery]
    generalize settled.store.commit (settled.store.begin.push (.putQuery processed.query))
      settled.environment = commit at hrun ⊢
    obtain ⟨result, store, environment⟩ := commit
    cases result with
    | error error => exact ⟨_, _, hrun, returned_put hfree i _ _ _, habout⟩
    | ok catalog =>
        simp only [Except.map]
        cases hkeep : keepResults processed.query processed.results
            { settled with store := store, environment := environment } with
        | mk outcome next =>
            have hkeeping := call_put_self { serving.put i (.recording processed) with
              world := { serving.world with store := store }.put (.inl i) .over } i
                (.keeping processed)
            obtain ⟨hkept, event, hevent, hstep⟩ := exists_step_keep hkeeping hkeep
            have hlast := hrun.step hstep
            rw [put_put] at hlast
            have hall : ∀ other ∈ events ++ more ++ [event], other.call? = some i := by
              simpa [or_imp, forall_and, hevent] using habout
            cases outcome with
            | error error => exact ⟨_, _, hlast, hkept ▸ returned_put hfree i _ _ _, hall⟩
            | ok => exact ⟨_, _, hlast, hkept ▸ returned_put hfree i _ _ _, hall⟩
  · rw [if_pos hstate]
    refine ⟨_, _, Run.nil.step (.refuse hcall hstate), ?_, by simp [Event.call?]⟩
    exact {
      call := call_put_self ..
      store := hstore
      isFree := hfree
      calls := fun j hne => call_put_of_ne serving hne _
      stages := fun _ _ => rfl }

end Serving

end MetricCatalog
