/-
# What a call commits

A call begins its session when its query has ended, and puts nothing into it but
the record. So its log fits every catalog, whatever other sessions have made of
it: the commit fails only if the files do, and of all that a call does this is
the only thing that changes the catalog.
-/

import MetricCatalog.Proofs.Catalog.Beside
import MetricCatalog.Proofs.Catalog.Serial
import MetricCatalog.Proofs.Query.Serving

namespace MetricCatalog

open FileTree (SameFiles)

/-- The catalog after the record of a query has been committed. -/
def Catalog.recorded (catalog : Catalog) (query : Query) : Catalog :=
  { catalog with
    queries := catalog.queries.insert query.id query
    version := catalog.version + 1 }

/-- A record fits every catalog, so its commit succeeds unless the files fail. Either way, JSON
files of other names than that of the catalog are left alone. -/
theorem Store.commitLog_putQuery {σ : Type} (store : Store) (query : Query)
    (environment : Environment σ) :
    (∃ files, store.commitLog [.putQuery query] environment =
        (.ok (store.committed.recorded query),
          { store with committed := store.committed.recorded query },
          { environment with files := files }) ∧
      ∀ key : String, (∀ storage ∈ store.storage, storage.path.fileName? ≠ some s!"{key}.json") →
        SameFiles s!"{key}.json" environment.files files) ∨
    ∃ cause files, store.commitLog [.putQuery query] environment =
        (.error (.storage cause), store, { environment with files := files }) ∧
      ∀ key : String, SameFiles s!"{key}.json" environment.files files := by
  have hreplay : store.replay [.putQuery query] = .ok (store.committed.recorded query) := rfl
  unfold commitLog
  rw [hreplay]
  cases hstorage : store.storage with
  | none => exact Or.inl ⟨environment.files, rfl, fun _ _ => SameFiles.refl _ _⟩
  | some storage =>
      cases hwrite : storage.write environment.now environment.files
          (store.committed.recorded query) with
      | mk result files =>
          have hname := storage.temporaryName_ne_json
          simp only [hwrite]
          cases result with
          | ok =>
              exact Or.inl ⟨files, rfl, fun key hkey =>
                Storage.write_sameFiles hwrite (hname key) fun _ => hkey storage rfl⟩
          | error cause =>
              exact Or.inr ⟨cause, files, rfl, fun key =>
                Storage.write_sameFiles hwrite (hname key) fun hok => by cases hok⟩

namespace Serving

variable {ι κ : Type}

/-- Where a session stands in which a call records a query, up to the end of its commit. -/
inductive OnTheWay (query : Query) : Stage → Prop
  | absent : OnTheWay query .absent
  | begun (view : Catalog) : OnTheWay query (.active (.start view))
  | pushed (view : Catalog) :
      OnTheWay query (.active ((Session.start view).push (.putQuery query)))
  | waiting : OnTheWay query (.waiting [.putQuery query])
  | writing : OnTheWay query (.writing [.putQuery query])

/-- The log that a call adds to the catalog with an event. -/
def Event.commit? [DecidableEq ι] (i : ι) : Event ι κ → Option (List Mutation)
  | .stored (.settled (.inl j) log (.ok _)) => if j = i then some log else none
  | _ => none

/-- The logs that a call has added to the catalog. -/
def commitsIn [DecidableEq ι] (i : ι) (events : List (Event ι κ)) : List (List Mutation) :=
  events.filterMap (Event.commit? i)

/-- Where a call stands agrees with its session and with what it has committed. -/
inductive Fits : QueryCall → Stage → List (List Mutation) → Prop
  | absent : Fits .absent .absent []
  | called (query : Query) (scheduled started : Instant) :
      Fits (.called query scheduled started) .absent []
  | running (query : Query) (scheduled started : Instant) (uri : String) (left : List String)
      (results : QueryResults) :
      Fits (.running query scheduled started uri left results) .absent []
  | recording {processed : QueryWithResults} {stage : Stage}
      (hway : OnTheWay processed.query stage) : Fits (.recording processed) stage []
  | keeping (processed : QueryWithResults) :
      Fits (.keeping processed) .over [[.putQuery processed.query]]
  | answered (processed : QueryWithResults) :
      Fits (.returned (.ok processed)) .over [[.putQuery processed.query]]
  | lost (query : Query) (error : BackendError) :
      Fits (.returned (.error (.results error))) .over [[.putQuery query]]
  | unwritten (cause : StorageError) :
      Fits (.returned (.error (.store (.storage cause)))) .over []
  | refused (id : Uuid) (state : QueryState) :
      Fits (.returned (.error (.alreadyProcessed id state))) .absent []

variable [DecidableEq ι] [DecidableEq κ]
variable {first serving next last : Serving ι κ} {events : List (Event ι κ)} {i : ι}

/-! ## One step -/

omit [DecidableEq ι] [DecidableEq κ] in
theorem Records.session?_eq {session : ι ⊕ κ} {query : Query} {stage : Stage}
    {event : World.Event (ι ⊕ κ)} (hrecords : Records session query stage event) :
    event.session? = some session := by
  cases hrecords <;> rfl

omit [DecidableEq ι] [DecidableEq κ] in
theorem Event.call?_stored {event : World.Event (ι ⊕ κ)} :
    (Event.stored event).call? = some i ↔ event.session? = some (.inl i) := by
  rw [Event.call?]
  cases event.session? with
  | none => simp
  | some session => cases session <;> simp

omit [DecidableEq κ] in
theorem Event.commit?_of_ne {event : Event ι κ} (hother : event.call? ≠ some i) :
    event.commit? i = none := by
  unfold Event.commit?
  split
  · rename_i j log catalog
    exact if_neg fun hsame => hother (congrArg some hsame)
  · rfl

omit [DecidableEq κ] in
theorem Event.commit?_eq_some {event : Event ι κ} {log : List Mutation} :
    event.commit? i = some log ↔
      ∃ catalog, event = .stored (.settled (.inl i) log (.ok catalog)) := by
  constructor
  · intro hcommit
    unfold Event.commit? at hcommit
    split at hcommit
    · rename_i j other catalog
      split_ifs at hcommit with hsame
      cases hcommit
      exact ⟨catalog, by rw [hsame]⟩
    · cases hcommit
  · rintro ⟨catalog, rfl⟩
    exact if_pos rfl

/-- A step that is not about a call leaves it and its session where they stand. -/
theorem Step.frame {event : Event ι κ} (hstep : Step serving event next)
    (hother : event.call? ≠ some i) :
    next.call i = serving.call i ∧
      next.world.stage (.inl i) = serving.world.stage (.inl i) := by
  have hput : ∀ {j : ι} (call : QueryCall), some j ≠ some i →
      (serving.put j call).call i = serving.call i :=
    fun call hne => call_put_of_ne serving (fun hsame => hne (congrArg some hsame.symm)) call
  cases hstep with
  | outside hstep hlocal => exact ⟨rfl, hstep.stage_of_ne (hlocal i)⟩
  | @record j processed event world hcall hstep hrecords =>
      have hsession : event.session? ≠ some (.inl i) :=
        fun hsession => hother (Event.call?_stored.mpr hsession)
      refine ⟨call_put_of_ne _ ?_ _, hstep.stage_of_ne hsession⟩
      rintro rfl
      exact hsession hrecords.session?_eq
  | refuse | call | look | miss | execute | fail | finish | keep | lose =>
      exact ⟨hput _ hother, rfl⟩

/-- Something has happened to the session of a call that records its query. -/
theorem fits_after {world later : World (ι ⊕ κ)} {processed : QueryWithResults}
    {event : World.Event (ι ⊕ κ)} (hstep : World.Step world event later)
    (hrecords : Records (.inl i) processed.query (world.stage (.inl i)) event)
    (hway : OnTheWay processed.query (world.stage (.inl i))) :
    Fits (after processed event) (later.stage (.inl i))
      ((Event.stored event).commit? i).toList := by
  -- Where the session stands, what happens to it is what comes next on the way of its record.
  cases hrecords with
  | begin =>
      cases hstep with
      | begin =>
          rw [World.stage_put_self]
          exact .recording (.begun _)
  | push hstage =>
      cases hstep with
      | push hactive =>
          rw [hstage] at hactive
          cases hactive
          rw [World.stage_put_self]
          exact .recording (.pushed _)
  | request hstage =>
      cases hstep with
      | request hactive =>
          rw [hstage] at hactive
          cases hactive
          rw [World.stage_put_self]
          exact .recording .waiting
  | refuse hstage error =>
      cases hstep with
      | refuse hactive hflush =>
          rw [hstage] at hactive
          cases hactive
          cases hflush
  | enter =>
      cases hstep with
      | enter _ hwaiting =>
          rw [hwaiting] at hway
          cases hway
          rw [World.stage_put_self]
          exact .recording .writing
  | settle log result =>
      cases hstep with
      | settle hwriting environment =>
          rw [hwriting] at hway
          cases hway
          rw [World.stage_put_self]
          rcases world.store.commitLog_putQuery processed.query environment with
            ⟨files, hresult, -⟩ | ⟨cause, files, hresult, -⟩
          · rw [hresult, Event.commit?, if_pos rfl]
            exact .keeping processed
          · rw [hresult]
            exact .unwritten cause
      | fail hwriting hreplay hstorage cause =>
          rw [hwriting] at hway
          cases hway
          rw [World.stage_put_self]
          exact .unwritten cause

omit [DecidableEq κ] in
/-- A call has come further and its session has not. -/
theorem Fits.put {earlier later : QueryCall} {commits : List (List Mutation)}
    (hfits : Fits (serving.call i) (serving.world.stage (.inl i)) commits)
    (hcall : serving.call i = earlier)
    (hfurther : ∀ stage, Fits earlier stage commits → Fits later stage commits) :
    Fits ((serving.put i later).call i) ((serving.put i later).world.stage (.inl i))
      (commits ++ []) := by
  rw [hcall] at hfits
  rw [call_put_self, List.append_nil]
  exact hfurther _ hfits

/-- By cases on what the call does: it comes further, or its session does. -/
theorem Step.fits {event : Event ι κ} {commits : List (List Mutation)}
    (hstep : Step serving event next)
    (hfits : Fits (serving.call i) (serving.world.stage (.inl i)) commits) :
    Fits (next.call i) (next.world.stage (.inl i)) (commits ++ (event.commit? i).toList) := by
  by_cases habout : event.call? = some i
  · cases hstep with
    | outside _ hlocal => exact absurd (Event.call?_stored.mp habout) (hlocal i)
    | record hcall hstep hrecords =>
        cases hrecords.session?_eq.symm.trans (Event.call?_stored.mp habout)
        rw [hcall] at hfits
        rw [call_put_self]
        generalize hstage : serving.world.stage (.inl i) = stage at hfits
        cases hfits with
        | recording hway => exact fits_after hstep hrecords (hstage ▸ hway)
    | refuse hcall =>
        cases habout
        exact hfits.put hcall fun stage hfits => by cases hfits; exact .refused ..
    | call hcall =>
        cases habout
        exact hfits.put hcall fun stage hfits => by cases hfits; exact .called ..
    | look hcall =>
        cases habout
        exact hfits.put hcall fun stage hfits => by cases hfits; exact .running ..
    | miss hcall =>
        cases habout
        exact hfits.put hcall fun stage hfits => by cases hfits; exact .recording .absent
    | execute hcall =>
        cases habout
        exact hfits.put hcall fun stage hfits => by cases hfits; exact .running ..
    | fail hcall =>
        cases habout
        exact hfits.put hcall fun stage hfits => by cases hfits; exact .recording .absent
    | finish hcall =>
        cases habout
        exact hfits.put hcall fun stage hfits => by cases hfits; exact .recording .absent
    | keep hcall =>
        cases habout
        exact hfits.put hcall fun stage hfits => by cases hfits; exact .answered _
    | lose hcall =>
        cases habout
        exact hfits.put hcall fun stage hfits => by cases hfits; exact .lost ..
  · obtain ⟨hcall, hstage⟩ := hstep.frame habout
    rw [hcall, hstage, Event.commit?_of_ne habout, Option.toList_none, List.append_nil]
    exact hfits

/-! ## A whole run -/

omit [DecidableEq κ] in
theorem commitsIn_append (i : ι) (events : List (Event ι κ)) (event : Event ι κ) :
    commitsIn i (events ++ [event]) = commitsIn i events ++ (event.commit? i).toList :=
  History.filterMap_concat ..

theorem Run.fits {store : Store} (hrun : Run (ofStore store) events last) (i : ι) :
    Fits (last.call i) (last.world.stage (.inl i)) (commitsIn i events) := by
  induction hrun with
  | nil => exact .absent
  | step _ hstep ih =>
      rw [commitsIn_append]
      exact hstep.fits ih

omit [DecidableEq ι] [DecidableEq κ] in
theorem Fits.length_le_one {call : QueryCall} {stage : Stage} {commits : List (List Mutation)}
    (hfits : Fits call stage commits) : commits.length ≤ 1 := by
  cases hfits <;> simp

/-- A call commits once. -/
theorem Run.commit?_later {store : Store} {earlier later : List (Event ι κ)} {commit : Event ι κ}
    {log : List Mutation} (hrun : Run (ofStore store) (earlier ++ commit :: later) last)
    (hcommit : commit.commit? i = some log) : ∀ event ∈ later, event.commit? i = none := by
  have honce := (hrun.fits i).length_le_one
  rw [commitsIn, List.filterMap_append, List.filterMap_cons_some hcommit, List.length_append,
    List.length_cons] at honce
  rw [← List.filterMap_eq_nil_iff, ← List.length_eq_zero_iff]
  omega

end Serving

end MetricCatalog
