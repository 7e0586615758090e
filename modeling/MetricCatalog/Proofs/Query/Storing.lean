/-
# Records and results

The record of a query goes into the catalog and its results behind it into their
backend. The two are not changed together: a commit that has succeeded is not
taken back when the results cannot be kept. So there may be a record without
results, but only when that was the answer, and no results without a record.
-/

import MetricCatalog.Proofs.Query.Committing

namespace MetricCatalog

open FileTree (SameFiles)
open QueryService (settle process recordQuery keepResults plainDrivers plainService)

variable {σ γ : Type}

/-! ## What a backend is left with -/

/-- Nothing was put under a key of a backend, and nothing was taken from there. A backend in memory
has its entries in itself, and a directory has them in files that are named after the keys. -/
structure ResultsBackend.SameEntry (key : String) (backend next : ResultsBackend)
    (files later : FileTree) : Prop where
  backend : next = backend
  files : SameFiles s!"{key}.json" files later

/-- A text is kept, or there is nothing new. -/
theorem ResultsBackend.add_cases (backend : ResultsBackend) (key text : String) (now : Instant)
    (files : FileTree) :
    (∃ next later, backend.add key text now files = (.ok (), next, later) ∧
      next.get key later = .ok (some text)) ∨
    ∃ error later, backend.add key text now files = (.error error, backend, later) ∧
      ∀ name, SameFiles name files later := by
  cases hadd : backend.add key text now files with
  | mk result rest =>
      obtain ⟨next, later⟩ := rest
      cases result with
      | ok => exact Or.inl ⟨next, later, rfl, ResultsBackend.get_add hadd⟩
      | error error =>
          right
          cases backend with
          | memory entries => cases hadd
          | directory path =>
              simp only [add] at hadd
              split at hadd
              · cases hadd
                exact ⟨_, _, rfl, fun name => SameFiles.refl name _⟩
              · rename_i made hmake
                split at hadd
                · cases hadd
                  exact ⟨_, _, rfl, fun name => FileTree.makeDirectories_sameFiles hmake⟩
                · cases hadd

/-- How the processing of a query ends, and with what. The files are those that the drivers have
left. -/
inductive QueryService.Stores (service : QueryService σ) (processed : QueryWithResults)
    (files : FileTree) : Except QueryError QueryWithResults → QueryService σ → Prop
  /-- The record could not be committed; there is neither a record nor results. -/
  | unrecorded {error : StoreError} {next : QueryService σ} (store : next.store = service.store)
      (entry : ResultsBackend.SameEntry processed.query.id.format service.results next.results
        files next.environment.files) :
      Stores service processed files (.error (.store error)) next
  /-- The results could not be kept; there is a record, but no results. -/
  | unkept {error : BackendError} {next : QueryService σ}
      (store : next.store =
        { service.store with committed := service.store.committed.recorded processed.query })
      (entry : (∀ storage ∈ service.store.storage,
          storage.path.fileName? ≠ some s!"{processed.query.id.format}.json") →
        ResultsBackend.SameEntry processed.query.id.format service.results next.results
          files next.environment.files) :
      Stores service processed files (.error (.results error)) next
  /-- There are both. -/
  | stored {next : QueryService σ}
      (store : next.store =
        { service.store with committed := service.store.committed.recorded processed.query })
      (kept : next.results.get processed.query.id.format next.environment.files =
        .ok (some (Codec.ofQueryResults processed.results).compact)) :
      Stores service processed files (.ok processed) next

/-- A record in a session of its own is the log of that session. -/
theorem Store.commit_record (store : Store) (query : Query) (environment : Environment σ) :
    store.commit (store.begin.push (.putQuery query)) environment =
      store.commitLog [.putQuery query] environment := rfl

namespace QueryService

/-- By cases on the commit, and on the adding of the results behind it. -/
theorem stores_process (drivers : Drivers (Environment σ) γ) {query : Query}
    (hstate : query.state = .pending) (service : QueryService σ) :
    Stores service (settle drivers query service).1
      (settle drivers query service).2.environment.files
      (process drivers query service).1 (process drivers query service).2 := by
  -- Running the statements leaves the store and the backend alone, whatever the drivers do.
  have hsettled : (settle drivers query service).2 =
      { service with environment := (settle drivers query service).2.environment } := by
    simp only [settle_eq]
  unfold process
  rw [if_neg (by simpa using hstate)]
  generalize settle drivers query service = settled at hsettled ⊢
  obtain ⟨processed, settled⟩ := settled
  simp only at hsettled ⊢
  generalize settled.environment = environment at hsettled ⊢
  subst hsettled
  simp only [recordQuery, Store.commit_record]
  rcases service.store.commitLog_putQuery processed.query environment with
    ⟨files, hrecord, hbeside⟩ | ⟨cause, files, hrecord, hbeside⟩
  · rw [hrecord]
    simp only [Except.map, keepResults]
    rcases service.results.add_cases processed.query.id.format
      (Codec.ofQueryResults processed.results).compact environment.now files with
      ⟨backend, later, hadd, hget⟩ | ⟨error, later, hadd, hsame⟩
    · rw [hadd]
      exact .stored rfl hget
    · rw [hadd]
      exact .unkept rfl fun hkey => ⟨rfl, (hbeside _ hkey).trans (hsame _)⟩
  · rw [hrecord]
    exact .unrecorded rfl ⟨rfl, hbeside _⟩

end QueryService

namespace Serving

variable {ι κ : Type} [DecidableEq ι] [DecidableEq κ]
variable {serving next last : Serving ι κ} {events : List (Event ι κ)} {i : ι}

/-! ## Calls that have answered -/

/-- The results of a call are in a backend when it returns. -/
def Kept (i : ι) (processed : QueryWithResults) (event : Event ι κ) : Prop :=
  ∃ backend files, event = .kept i backend files ∧
    backend.get processed.query.id.format files =
      .ok (some (Codec.ofQueryResults processed.results).compact)

theorem Step.kept {event : Event ι κ} {processed : QueryWithResults}
    (hstep : Step serving event next) (hcall : next.call i = .returned (.ok processed)) :
    serving.call i = .returned (.ok processed) ∨ Kept i processed event := by
  by_cases habout : event.call? = some i
  · cases hstep with
    | outside _ hlocal => exact absurd (Event.call?_stored.mp habout) (hlocal i)
    | @record _ _ event _ _ _ hrecords =>
        cases hrecords.session?_eq.symm.trans (Event.call?_stored.mp habout)
        rw [call_put_self] at hcall
        cases hrecords with
        | settle log result => cases result <;> cases hcall
        | begin | push | request | refuse | enter => cases hcall
    | refuse | call | look | miss | execute | fail | finish | lose =>
        cases habout
        rw [call_put_self] at hcall
        cases hcall
    | keep _ hadd =>
        cases habout
        rw [call_put_self] at hcall
        cases hcall
        exact Or.inr ⟨_, _, rfl, ResultsBackend.get_add hadd⟩
  · rw [(hstep.frame habout).1] at hcall
    exact Or.inl hcall

theorem Run.kept {store : Store} {processed : QueryWithResults}
    (hrun : Run (ofStore store) events last) (hcall : last.call i = .returned (.ok processed)) :
    ∃ event ∈ events, Kept i processed event := by
  induction hrun with
  | nil => cases hcall
  | step _ hstep ih =>
      rcases hstep.kept hcall with hcall | hkept
      · obtain ⟨event, hevent, hkept⟩ := ih hcall
        exact ⟨event, List.mem_append_left _ hevent, hkept⟩
      · exact ⟨_, by simp, hkept⟩

/-- Where a call can stand that has committed the record of a query. -/
inductive Accounted (i : ι) (query : Query) (events : List (Event ι κ)) : QueryCall → Prop
  /-- It has not returned yet. -/
  | keeping {processed : QueryWithResults} (hquery : processed.query = query) :
      Accounted i query events (.keeping processed)
  /-- It has returned, and its results were in the backend. -/
  | answered {processed : QueryWithResults} {event : Event ι κ} (hquery : processed.query = query)
      (hevent : event ∈ events) (hkept : Kept i processed event) :
      Accounted i query events (.returned (.ok processed))
  /-- It has returned that its results could not be kept. -/
  | lost (error : BackendError) : Accounted i query events (.returned (.error (.results error)))

theorem Run.accounted {store : Store} {log : List Mutation} {catalog : Catalog}
    (hrun : Run (ofStore store) events last)
    (hcommit : .stored (.settled (.inl i) log (.ok catalog)) ∈ events) :
    ∃ query, log = [.putQuery query] ∧ Accounted i query events (last.call i) := by
  have hmem : log ∈ commitsIn i events :=
    List.mem_filterMap.mpr ⟨_, hcommit, Event.commit?_eq_some.mpr ⟨catalog, rfl⟩⟩
  have hfits := hrun.fits i
  generalize last.world.stage (.inl i) = stage at hfits
  generalize hcommits : commitsIn i events = commits at hfits hmem
  generalize hcall : last.call i = call at hfits ⊢
  cases hfits with
  | absent | called | running | recording | unwritten | refused => cases hmem
  | keeping processed =>
      cases List.mem_singleton.mp hmem
      exact ⟨_, rfl, .keeping rfl⟩
  | answered processed =>
      cases List.mem_singleton.mp hmem
      obtain ⟨event, hevent, hkept⟩ := hrun.kept hcall
      exact ⟨_, rfl, .answered rfl hevent hkept⟩
  | lost query error =>
      cases List.mem_singleton.mp hmem
      exact ⟨_, rfl, .lost error⟩

end Serving

namespace QueryService

/-- A service with a file where the results should be. -/
def blockedService : QueryService Unit :=
  { plainService with
    results := .directory ⟨"results"⟩
    environment :=
      { plainService.environment with
        files := ⟨KeyMap.empty.insert ["results"] (.file (.text "") default), []⟩ } }

theorem exists_process_blocked :
    ∃ key cause next recorded,
      process plainDrivers (.new default "a" "';'; --;") blockedService =
        (.error (.results (.write key cause)), next) ∧
      next.store.committed.queries.find? default = some recorded ∧
      recorded.state = .finished ∧ next.results = blockedService.results ∧
      next.environment.files = blockedService.environment.files := by
  unfold process
  rw [if_neg (by decide), settle_eq]
  simp only [Query.new, show blockedService.store = plainService.store from rfl, runText_plain]
  exact ⟨_, _, _, _, rfl, rfl, rfl, rfl, rfl⟩

end QueryService

end MetricCatalog
