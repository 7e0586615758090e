/-
# Records that last

A record that is in the catalog stays there as it is until another one with its
identifier is put. No change but a record touches the queries of a catalog, and
a session that began on an older catalog commits its changes to the latest one,
so it takes nothing away that it has not seen.
-/

import Mathlib.Data.List.Induction
import MetricCatalog.Proofs.Catalog.Independence
import MetricCatalog.Proofs.Query.Committing

namespace MetricCatalog

open QueryService (process plainDrivers plainService)

/-! ## Logs and the queries of a catalog -/

/-- A record is an entry that only changes with its identifier are about. -/
theorem Catalog.find?_query_applyAll {catalog next : Catalog} {log : List Mutation} {id : Uuid}
    (happly : catalog.applyAll log = .ok next)
    (hother : ∀ query, .putQuery query ∈ log → query.id ≠ id) :
    next.queries.find? id = catalog.queries.find? id := by
  have hothers : ∀ mutation ∈ log, EntryKey.query id ≠ mutation.key := by
    intro mutation hmutation hkey
    cases mutation with
    | putQuery query => exact hother query hmutation (EntryKey.query.inj hkey).symm
    | createDatabase | dropDatabase | createNode | dropNode => cases hkey
  exact Catalog.at?_applyAll_of_ne happly hothers

theorem Store.find?_query_replay {store : Store} {log : List Mutation} {catalog : Catalog}
    {id : Uuid} (hreplay : store.replay log = .ok catalog)
    (hother : ∀ query, .putQuery query ∈ log → query.id ≠ id) :
    catalog.queries.find? id = store.committed.queries.find? id := by
  show (catalog.withVersion store.committed.version).queries.find? id = _
  exact Catalog.find?_query_applyAll (World.exists_applyAll_of_replay hreplay).1 hother

/-- The identifier of the query of a call that has not failed. -/
def QueryCall.id? : QueryCall → Option Uuid
  | called query _ _ | running query _ _ _ _ _ => some query.id
  | recording processed | keeping processed | returned (.ok processed) =>
      some processed.query.id
  | _ => none

namespace Serving

variable {ι κ : Type}

/-- A record with an identifier is committed. -/
def Event.Puts (id : Uuid) : Event ι κ → Prop
  | .stored (.settled _ log (.ok _)) => ∃ query, .putQuery query ∈ log ∧ query.id = id
  | _ => False

variable [DecidableEq ι] [DecidableEq κ]
variable {first serving next last : Serving ι κ} {events : List (Event ι κ)} {i : ι} {id : Uuid}

/-! ## One step -/

theorem Step.world_cases {event : Event ι κ} (hstep : Step serving event next) :
    (∃ stored, event = .stored stored ∧ World.Step serving.world stored next.world) ∨
      (∀ stored, event ≠ .stored stored) ∧ next.world = serving.world := by
  cases hstep with
  | outside hstep | record _ hstep => exact Or.inl ⟨_, rfl, hstep⟩
  | refuse | call | look | miss | execute | fail | finish | keep | lose =>
      exact Or.inr ⟨fun stored heq => (by cases heq), rfl⟩

/-- A step changes no record but those that it commits. -/
theorem Step.find?_query {event : Event ι κ} (hstep : Step serving event next)
    (hother : ¬ event.Puts id) :
    next.world.store.committed.queries.find? id =
      serving.world.store.committed.queries.find? id := by
  rcases hstep.world_cases with ⟨stored, rfl, hstored⟩ | ⟨-, hworld⟩
  · rcases hstored.store_cases with ⟨session, log, catalog, rfl, hreplay, hstore⟩ | ⟨-, hstore⟩
    · rw [hstore]
      exact Store.find?_query_replay hreplay fun query hquery hid => hother ⟨query, hquery, hid⟩
    · rw [hstore]
  · rw [hworld]

theorem Step.find?_query_self {session : ι ⊕ κ} {query : Query} {catalog : Catalog}
    (hstep : Step serving (.stored (.settled session [.putQuery query] (.ok catalog))) next) :
    next.world.store.committed.queries.find? query.id = some query := by
  rcases hstep.world_cases with ⟨stored, heq, hstored⟩ | ⟨hnone, -⟩
  · cases heq
    rcases hstored.store_cases with ⟨_, _, _, heq, hreplay, hstore⟩ | ⟨hnone, -⟩
    · cases heq
      cases hreplay
      rw [hstore]
      exact KeyMap.find?_insert_self ..
    · cases hnone
  · exact absurd rfl (hnone _)

/-! ## A whole run -/

theorem Run.of_concat {event : Event ι κ} (hrun : Run first (events ++ [event]) last) :
    ∃ serving, Run first events serving ∧ Step serving event last := by
  generalize hall : events ++ [event] = all at hrun
  cases hrun with
  | nil => simp at hall
  | step prior hstep =>
      obtain ⟨rfl, hlast⟩ := List.append_inj' hall rfl
      cases hlast
      exact ⟨_, prior, hstep⟩

/-- By induction on what has happened since the commit of a record. -/
theorem Run.find?_query {earlier since : List (Event ι κ)} {session : ι ⊕ κ} {query : Query}
    {catalog : Catalog}
    (hrun : Run first
      (earlier ++ .stored (.settled session [.putQuery query] (.ok catalog)) :: since) last)
    (hothers : ∀ event ∈ since, ¬ event.Puts query.id) :
    last.world.store.committed.queries.find? query.id = some query := by
  induction since using List.reverseRecOn generalizing last with
  | nil =>
      obtain ⟨serving, -, hstep⟩ := hrun.of_concat
      exact hstep.find?_query_self
  | append_singleton since event ih =>
      rw [← List.cons_append, ← List.append_assoc] at hrun
      obtain ⟨serving, hprior, hstep⟩ := hrun.of_concat
      rw [hstep.find?_query (hothers event (by simp))]
      exact ih hprior fun other hother => hothers other (List.mem_append_left _ hother)

/-! ## The query of a call -/

omit [DecidableEq ι] [DecidableEq κ] in
theorem id?_after {processed : QueryWithResults} {event : World.Event (ι ⊕ κ)}
    (hid : (after processed event).id? = some id) : processed.query.id = id := by
  cases event with
  | looked | began | pushed | flushed | requested | entered => exact Option.some.inj hid
  | refused => cases hid
  | settled session log result =>
      cases result with
      | error error => cases hid
      | ok catalog => exact Option.some.inj hid

/-- A call works for the query that it was called with. -/
theorem Step.id? {event : Event ι κ} (hstep : Step serving event next)
    (hid : (next.call i).id? = some id) :
    (serving.call i).id? = some id ∨ ∃ query, event = .called i query ∧ query.id = id := by
  by_cases habout : event.call? = some i
  · cases hstep with
    | outside _ hlocal => exact absurd (Event.call?_stored.mp habout) (hlocal i)
    | record hcall _ hrecords =>
        cases hrecords.session?_eq.symm.trans (Event.call?_stored.mp habout)
        rw [call_put_self] at hid
        rw [hcall]
        exact Or.inl (congrArg some (id?_after hid))
    | refuse | lose =>
        cases habout
        rw [call_put_self] at hid
        cases hid
    | call =>
        cases habout
        rw [call_put_self] at hid
        exact Or.inr ⟨_, rfl, Option.some.inj hid⟩
    | look hcall | execute hcall | keep hcall =>
        cases habout
        rw [call_put_self] at hid
        rw [hcall]
        exact Or.inl hid
    | miss hcall | fail hcall | finish hcall =>
        cases habout
        rw [call_put_self, QueryCall.id?, QueryService.ended_id] at hid
        rw [hcall]
        exact Or.inl hid
  · rw [(hstep.frame habout).1] at hid
    exact Or.inl hid

theorem Run.exists_called {store : Store} (hrun : Run (ofStore store) events last)
    (hid : (last.call i).id? = some id) : ∃ query, .called i query ∈ events ∧ query.id = id := by
  induction hrun with
  | nil => cases hid
  | step _ hstep ih =>
      rcases hstep.id? hid with hid | ⟨query, rfl, hid⟩
      · obtain ⟨query, hquery, hid⟩ := ih hid
        exact ⟨query, List.mem_append_left _ hquery, hid⟩
      · exact ⟨query, by simp, hid⟩

/-! ## How a commit fails -/

theorem Step.exists_after {event : World.Event (ι ⊕ κ)} (hstep : Step serving (.stored event) next)
    (hsession : event.session? = some (.inl i)) :
    ∃ processed, next.call i = after processed event := by
  generalize hstored : Event.stored event = stored at hstep
  cases hstep with
  | outside _ hlocal =>
      cases hstored
      exact absurd hsession (hlocal i)
  | record _ _ hrecords =>
      cases hstored
      rw [hrecords.session?_eq] at hsession
      cases hsession
      exact ⟨_, call_put_self ..⟩
  | refuse | call | look | miss | execute | fail | finish | keep | lose => cases hstored

theorem Run.exists_fits {store : Store} (hrun : Run (ofStore store) events last)
    {event : World.Event (ι ⊕ κ)} (hevent : .stored event ∈ events)
    (hsession : event.session? = some (.inl i)) :
    ∃ processed stage commits, Fits (after processed event) stage commits := by
  induction hrun with
  | nil => cases hevent
  | step prior hstep ih =>
      rcases List.mem_append.mp hevent with hevent | hevent
      · exact ih hevent
      · cases List.mem_singleton.mp hevent
        obtain ⟨processed, hcall⟩ := hstep.exists_after hsession
        have hfits := (prior.step hstep).fits i
        rw [hcall] at hfits
        exact ⟨processed, _, _, hfits⟩

omit [DecidableEq κ] in
/-- A call puts a record by its own commit. -/
theorem Event.Puts.exists_commit? {event : Event ι κ} (hputs : event.Puts id)
    (habout : event.call? = some i) : ∃ log, event.commit? i = some log := by
  unfold Event.Puts at hputs
  split at hputs
  · rename_i session log catalog
    cases Event.call?_stored.mp habout
    exact ⟨log, Event.commit?_eq_some.mpr ⟨catalog, rfl⟩⟩
  · cases hputs

/-! ## The main result -/

/-- In every run of any number of calls beside any number of other sessions: the commit of a call is
never refused, and if it fails, it is because the catalog cannot be written. From the commit of a
call that has returned a processed query, the catalog has the record of this query as it was
returned, whatever happens since, until another record with its identifier is committed. -/
theorem run_keeps_records {store : Store} (hrun : Run (ofStore store) events last) :
    (∀ i error, .stored (.refused (.inl i) error) ∉ events) ∧
    (∀ i log error, .stored (.settled (.inl i) log (.error error)) ∈ events →
      ∃ cause, error = .storage cause) ∧
    ∀ i processed, last.call i = .returned (.ok processed) →
      (∃ query, .called i query ∈ events ∧ query.id = processed.query.id) ∧
      ∃ earlier commit catalog later, events = earlier ++ commit :: later ∧
        commit = .stored (.settled (.inl i) [.putQuery processed.query] (.ok catalog)) ∧
        ∀ since next, Run (ofStore store) (earlier ++ commit :: since) next →
          (∀ event ∈ since, ¬ event.Puts processed.query.id) →
          next.world.store.committed.queries.find? processed.query.id = some processed.query := by
  refine ⟨fun i error hevent => ?_, fun i log error hevent => ?_, fun i processed hcall => ?_⟩
  · obtain ⟨processed, stage, commits, hfits⟩ := hrun.exists_fits hevent rfl
    cases hfits
  · obtain ⟨processed, stage, commits, hfits⟩ := hrun.exists_fits hevent rfl
    cases hfits with
    | unwritten cause => exact ⟨cause, rfl⟩
  · refine ⟨hrun.exists_called (by rw [hcall]; rfl), ?_⟩
    have hfits := hrun.fits i
    rw [hcall] at hfits
    generalize last.world.stage (.inl i) = stage at hfits
    have hcommits : commitsIn i events = [] ++ [.putQuery processed.query] :: [] := by
      generalize commitsIn i events = commits at hfits
      cases hfits
      rfl
    obtain ⟨earlier, commit, later, hsplit, hcommit, -⟩ := History.split_of_filterMap hcommits
    obtain ⟨catalog, hsettled⟩ := Event.commit?_eq_some.mp hcommit
    refine ⟨earlier, commit, catalog, later, hsplit, hsettled, fun since next hnext hothers => ?_⟩
    rw [hsettled] at hnext
    exact hnext.find?_query hothers

/-- The query is processed, and there is no warehouse yet that would be in the way of a new one. -/
theorem exists_process_plainService : ∃ processed next catalog,
    process plainDrivers (.new default "a" "';'; --;") plainService = (.ok processed, next) ∧
      (next.store.commitLog [.createDatabase World.warehouse] plainService.environment).1 =
        .ok catalog := by
  unfold process
  rw [if_neg (by decide), QueryService.settle_eq]
  simp only [Query.new, QueryService.runText_plain]
  exact ⟨_, _, _, rfl, rfl⟩

theorem Run.outside {k : κ} {event : World.Event (ι ⊕ κ)} {world : World (ι ⊕ κ)}
    (hrun : Run first events serving) (hstep : World.Step serving.world event world)
    (hsession : event.session? = some (.inr k)) :
    Run first (events ++ [.stored event]) { serving with world := world } :=
  hrun.step (.outside hstep fun i hi => by cases hsession.symm.trans hi)

/-- A session that is not one of a call commits its writes. -/
theorem Run.exists_commit {σ : Type} {k : κ} {session : Session} {environment : Environment σ}
    {result : Except StoreError Catalog} (hrun : Run first events serving)
    (hfree : serving.world.IsFree) (hstage : serving.world.stage (.inr k) = .active session)
    (hflush : session.flush.1 = .ok ())
    (hresult : (serving.world.store.commitLog session.flush.2.log environment).1 = result) :
    ∃ last, Run first (events ++ [.stored (.requested (.inr k))] ++ [.stored (.entered (.inr k))] ++
        [.stored (.settled (.inr k) session.flush.2.log result)]) last ∧
      last.call = serving.call := by
  have hrequest := hrun.outside (.request hstage hflush) rfl
  have hwaiting : (serving.world.put (.inr k) (.waiting session.flush.2.log)).IsFree :=
    hfree.put _ fun log hlog => by cases hlog
  have henter := hrequest.outside (.enter hwaiting (World.stage_put_self ..)) rfl
  have hsettle := henter.outside (.settle (World.stage_put_self ..) environment) rfl
  rw [← hresult]
  exact ⟨_, hsettle, rfl⟩

/-- A session has begun that wants to make the warehouse, and no call. -/
def begun : Serving Unit Unit where
  world := ((World.ofStore plainService.store).put (.inr ())
    (.active plainService.store.begin)).put (.inr ())
      (.active (plainService.store.begin.push (.createDatabase World.warehouse)))
  call _ := .absent

theorem run_begun : Run (ofStore plainService.store)
    [.stored (.began (.inr ()) plainService.store.committed),
      .stored (.pushed (.inr ()) (.createDatabase World.warehouse))] begun :=
  Run.outside (k := ()) (.outside (k := ()) .nil (.begin (World.isFree_ofStore _) rfl) rfl)
    (.push (World.stage_put_self ..) _) rfl

theorem isFree_begun : begun.world.IsFree := by
  refine World.IsFree.put (World.IsFree.put (World.isFree_ofStore _) _ ?_) _ ?_
  · intro log hlog
    cases hlog
  · intro log hlog
    cases hlog

/-- The session of a compilation begins before a query is processed and commits after it. -/
theorem run_keeps_records_overtaken :
    ∃ (catalog : Catalog) (between : List (Event Unit Unit)) (last : Serving Unit Unit)
      (processed : QueryWithResults),
      let events := [.stored (.began (.inr ()) plainService.store.committed)] ++ between ++
        [.stored (.settled (.inr ()) [.createDatabase World.warehouse] (.ok catalog))]
      Run (ofStore plainService.store) events last ∧ last.call () = .returned (.ok processed) ∧
        last.world.store.committed.queries.find? processed.query.id = some processed.query := by
  obtain ⟨processed, next, catalog, hprocess, hcommit⟩ := exists_process_plainService
  obtain ⟨more, answered, hcalled, hreturned, habout⟩ := exists_run_process plainDrivers
    (.new default "a" "';'; --;") plainService (i := ()) rfl isFree_begun rfl rfl
  have hactive : answered.world.stage (.inr ()) =
      .active (plainService.store.begin.push (.createDatabase World.warehouse)) :=
    hreturned.stages (.inr ()) Sum.inr_ne_inl
  rw [← show answered.world.store = next.store by rw [hreturned.store, hprocess]] at hcommit
  obtain ⟨last, hrun, hcall⟩ := (run_begun.trans hcalled).exists_commit hreturned.isFree hactive rfl
    hcommit
  have hanswered : last.call () = .returned (.ok processed) := by
    rw [hcall, hreturned.call, hprocess]
  obtain ⟨-, earlier, commit, recorded, later, hsplit, hcommit, hlasts⟩ :=
    (run_keeps_records hrun).2.2 () processed hanswered
  rw [hsplit] at hrun
  refine ⟨catalog, _, last, processed, hsplit ▸ hrun, hanswered, hlasts later last hrun ?_⟩
  -- The call has committed once, and the other session puts no record.
  intro event hlater hputs
  have honce := hrun.commit?_later (Event.commit?_eq_some.mpr ⟨recorded, hcommit⟩) event hlater
  have hevent : event ∈ earlier ++ commit :: later := by simp [hlater]
  rw [← hsplit] at hevent
  simp only [List.mem_append, List.mem_cons, List.not_mem_nil, or_false] at hevent
  rcases hevent with ((((rfl | rfl) | hmore) | rfl) | rfl) | rfl
  · cases hputs
  · cases hputs
  · obtain ⟨log, hlog⟩ := hputs.exists_commit? (habout event hmore)
    cases honce.symm.trans hlog
  · cases hputs
  · cases hputs
  · obtain ⟨query, hquery, -⟩ := hputs
    cases List.mem_singleton.mp hquery

end Serving

end MetricCatalog
