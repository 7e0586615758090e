/-
# Sessions side by side

Any number of sessions work on one store. Their steps interleave as they like,
with one limit: a commit holds the store from the moment it has its turn until
its result is there, and whoever wants the catalog in between has to wait. A
session makes its writes and flushes them without the store.

A commit takes three steps. It flushes its session, has its turn, and ends. The
files are another matter: they may have changed in any way between two commits,
and writing them may fail for reasons of its own.
-/

import Mathlib.Logic.Function.Basic
import MetricCatalog.Catalog.Store

namespace MetricCatalog

/-- Where a session stands. -/
inductive Stage
  /-- It has not begun. -/
  | absent
  /-- It takes writes. -/
  | active (session : Session)
  /-- Its commit waits for its turn. -/
  | waiting (log : List Mutation)
  /-- Its commit has its turn. -/
  | writing (log : List Mutation)
  /-- Its commit has ended. -/
  | over

/-- A store and all sessions on it. -/
structure World (ι : Type) where
  store : Store
  stage : ι → Stage

namespace World

variable {ι : Type}

/-- A store on which no session has begun. -/
def ofStore (store : Store) : World ι := ⟨store, fun _ => .absent⟩

/-- No commit has its turn. -/
def IsFree (world : World ι) : Prop := ∀ i log, world.stage i ≠ .writing log

/-- The world after a session has come to another stage. -/
def put [DecidableEq ι] (world : World ι) (i : ι) (stage : Stage) : World ι :=
  { world with stage := Function.update world.stage i stage }

/-- Something that happens in a world. -/
inductive Event (ι : Type)
  /-- Someone was given the latest catalog. -/
  | looked (catalog : Catalog)
  /-- A session began on a catalog. -/
  | began (i : ι) (catalog : Catalog)
  /-- A session took a write. -/
  | pushed (i : ι) (mutation : Mutation)
  /-- A session was flushed, with a result. -/
  | flushed (i : ι) (result : Except CatalogError Unit)
  /-- A commit flushed its session and waits. -/
  | requested (i : ι)
  /-- A commit ended because its session could not be flushed. -/
  | refused (i : ι) (error : CatalogError)
  /-- A commit has its turn. -/
  | entered (i : ι)
  /-- A commit of a log ended, with a result. -/
  | settled (i : ι) (log : List Mutation) (result : Except StoreError Catalog)

variable [DecidableEq ι]

/-- A single step of a world. -/
inductive Step (world : World ι) : Event ι → World ι → Prop
  | look (hfree : world.IsFree) : Step world (.looked world.store.committed) world
  | begin {i : ι} (hfree : world.IsFree) (hstage : world.stage i = .absent) :
      Step world (.began i world.store.begin.view) (world.put i (.active world.store.begin))
  | push {i : ι} {session : Session} (hstage : world.stage i = .active session)
      (mutation : Mutation) :
      Step world (.pushed i mutation) (world.put i (.active (session.push mutation)))
  | flush {i : ι} {session : Session} (hstage : world.stage i = .active session) :
      Step world (.flushed i session.flush.1) (world.put i (.active session.flush.2))
  | request {i : ι} {session : Session} (hstage : world.stage i = .active session)
      (hflush : session.flush.1 = .ok ()) :
      Step world (.requested i) (world.put i (.waiting session.flush.2.log))
  | refuse {i : ι} {session : Session} {error : CatalogError}
      (hstage : world.stage i = .active session) (hflush : session.flush.1 = .error error) :
      Step world (.refused i error) (world.put i .over)
  | enter {i : ι} {log : List Mutation} (hfree : world.IsFree)
      (hstage : world.stage i = .waiting log) :
      Step world (.entered i) (world.put i (.writing log))
  | settle {i : ι} {log : List Mutation} {σ : Type} (hstage : world.stage i = .writing log)
      (environment : Environment σ) :
      Step world (.settled i log (world.store.commitLog log environment).1)
        ({ world with store := (world.store.commitLog log environment).2.1 }.put i .over)
  | fail {i : ι} {log : List Mutation} {catalog : Catalog} {storage : Storage}
      (hstage : world.stage i = .writing log) (hreplay : world.store.replay log = .ok catalog)
      (hstorage : world.store.storage = some storage) (error : StorageError) :
      Step world (.settled i log (.error (.storage error))) (world.put i .over)

/-- The runs from a first world: what happened, and the world it led to. -/
inductive Run (first : World ι) : List (Event ι) → World ι → Prop
  | nil : Run first [] first
  | step {events : List (Event ι)} {world next : World ι} {event : Event ι}
      (prior : Run first events world) (hstep : Step world event next) :
      Run first (events ++ [event]) next

/-! ## Reading a list of events -/

/-- The session that an event is about. -/
def Event.session? : Event ι → Option ι
  | looked _ => none
  | began i _ | pushed i _ | flushed i _ | requested i | refused i _ | entered i
  | settled i _ _ => some i

/-- The log that an event adds to the catalog. -/
def Event.accepted? : Event ι → Option (List Mutation)
  | settled _ log (.ok _) => some log
  | _ => none

/-- The logs that were added to the catalog, in order. -/
def acceptedIn (events : List (Event ι)) : List (List Mutation) :=
  events.filterMap Event.accepted?

/-- The writes of a session: those that are flushed, and those that are not. -/
structure Writes where
  flushed : List Mutation
  buffered : List Mutation

/-- The writes of a session after one event more. -/
def Writes.after (i : ι) (writes : Writes) : Event ι → Writes
  | .pushed j mutation =>
      if j = i then { writes with buffered := writes.buffered ++ [mutation] } else writes
  | .flushed j (.ok _) | .requested j =>
      if j = i then ⟨writes.flushed ++ writes.buffered, []⟩ else writes
  | .flushed j (.error _) => if j = i then { writes with buffered := [] } else writes
  | _ => writes

/-- The writes of a session, as the events tell. -/
def writesIn (i : ι) (events : List (Event ι)) : Writes :=
  events.foldl (Writes.after i) ⟨[], []⟩

end World

/-! ## What single calls do -/

theorem Session.flush_cases (session : Session) :
    (∃ view, session.view.applyAll session.pending = .ok view ∧
      session.flush = (.ok (), ⟨view, [], session.log ++ session.pending⟩)) ∨
    ∃ error, session.view.applyAll session.pending = .error error ∧
      session.flush = (.error error, { session with pending := [] }) := by
  unfold flush
  cases happly : session.view.applyAll session.pending with
  | ok view => exact Or.inl ⟨view, rfl, rfl⟩
  | error error => exact Or.inr ⟨error, rfl, rfl⟩

/-- A commit puts the replayed catalog in place, or it leaves the store as it is. -/
theorem Store.commitLog_cases {σ : Type} (store : Store) (log : List Mutation)
    (environment : Environment σ) :
    (∃ catalog, store.replay log = .ok catalog ∧
      (store.commitLog log environment).1 = .ok catalog ∧
      (store.commitLog log environment).2.1 = { store with committed := catalog }) ∨
    ∃ error, (store.commitLog log environment).1 = .error error ∧
      (store.commitLog log environment).2.1 = store := by
  unfold commitLog
  cases store.replay log with
  | error error => exact Or.inr ⟨_, rfl, rfl⟩
  | ok catalog =>
      cases store.storage with
      | none => exact Or.inl ⟨catalog, rfl, rfl, rfl⟩
      | some storage =>
          simp only
          generalize storage.write environment.now environment.files catalog = written
          obtain ⟨result, files⟩ := written
          cases result with
          | ok => exact Or.inl ⟨catalog, rfl, rfl, rfl⟩
          | error error => exact Or.inr ⟨_, rfl, rfl⟩

/-! ## What single steps do -/

namespace World

variable {ι : Type} [DecidableEq ι] {world next : World ι} {event : Event ι}

@[simp] theorem store_put (world : World ι) (i : ι) (stage : Stage) :
    (world.put i stage).store = world.store := rfl

@[simp] theorem stage_put_self (world : World ι) (i : ι) (stage : Stage) :
    (world.put i stage).stage i = stage := by
  simp [put]

theorem stage_put_of_ne (world : World ι) {i j : ι} (hne : j ≠ i) (stage : Stage) :
    (world.put i stage).stage j = world.stage j := by
  simp [put, hne]

/-- A step changes the store only if it is a commit that succeeds. -/
theorem Step.store_cases (hstep : Step world event next) :
    (∃ i log catalog, event = .settled i log (.ok catalog) ∧
      world.store.replay log = .ok catalog ∧
      next.store = { world.store with committed := catalog }) ∨
    event.accepted? = none ∧ next.store = world.store := by
  cases hstep with
  | @settle i log _ _ environment =>
      rcases world.store.commitLog_cases log environment with
        ⟨catalog, hreplay, hresult, hstore⟩ | ⟨error, hresult, hstore⟩
      · exact Or.inl ⟨i, log, catalog, by rw [hresult], hreplay, hstore⟩
      · exact Or.inr ⟨by rw [hresult]; rfl, hstore⟩
  | look | begin | push | flush | request | refuse | enter | fail => exact Or.inr ⟨rfl, rfl⟩

theorem Step.stage_of_ne (hstep : Step world event next) {j : ι}
    (hother : event.session? ≠ some j) : next.stage j = world.stage j := by
  have hne : ∀ {i : ι}, some i ≠ some j → j ≠ i := fun hne heq => hne (congrArg some heq.symm)
  cases hstep with
  | look => rfl
  | begin | push | flush | request | refuse | enter | settle | fail =>
      exact stage_put_of_ne _ (hne hother) _

theorem Writes.after_of_ne (writes : Writes) {j : ι} (hother : event.session? ≠ some j) :
    writes.after j event = writes := by
  have hne : ∀ {i : ι}, some i ≠ some j → ¬ i = j := fun hne heq => hne (congrArg some heq)
  cases event with
  | looked | began | refused | entered | settled => rfl
  | pushed i mutation => exact if_neg (hne hother)
  | requested i => exact if_neg (hne hother)
  | flushed i result =>
      cases result with
      | ok => exact if_neg (hne hother)
      | error error => exact if_neg (hne hother)

/-! ## Who has the turn -/

omit [DecidableEq ι] in
theorem isFree_ofStore (store : Store) : (ofStore store : World ι).IsFree := by
  intro i log hstage
  cases hstage

theorem isFree_put {i : ι} {stage : Stage} (hothers : ∀ j ≠ i, ∀ log, world.stage j ≠ .writing log)
    (hstage : ∀ log, stage ≠ .writing log) : (world.put i stage).IsFree := by
  intro j log
  by_cases hsame : j = i
  · rw [hsame, stage_put_self]
    exact hstage log
  · rw [stage_put_of_ne _ hsame]
    exact hothers j hsame log

theorem IsFree.put (hfree : world.IsFree) (i : ι) {stage : Stage}
    (hstage : ∀ log, stage ≠ .writing log) : (world.put i stage).IsFree :=
  isFree_put (fun j _ => hfree j) hstage

/-- Only the step by which a commit has its turn takes the turn. -/
theorem Step.isFree (hstep : Step world event next) (hfree : world.IsFree)
    (hquiet : ∀ i, event ≠ .entered i) : next.IsFree := by
  cases hstep with
  | look => exact hfree
  | begin | push | flush | request | refuse => exact hfree.put _ (fun log hlog => by cases hlog)
  | @enter i => exact absurd rfl (hquiet i)
  | settle hstage | fail hstage => exact absurd hstage (hfree _ _)

theorem Run.quiet {first : World ι} {events : List (Event ι)}
    (hrun : Run first events world ∧ world.IsFree) (hstep : Step world event next)
    (hquiet : ∀ i, event ≠ .entered i) :
    Run first (events ++ [event]) next ∧ next.IsFree :=
  ⟨hrun.1.step hstep, hstep.isFree hrun.2 hquiet⟩

/-- A commit that waits has its turn and ends, and the turn is free again. -/
theorem Run.turn {σ : Type} {first : World ι} {events : List (Event ι)} {i : ι}
    {log : List Mutation} (hrun : Run first events world ∧ world.IsFree)
    (hstage : world.stage i = .waiting log) (environment : Environment σ) :
    Run first
        (events ++ [.entered i] ++ [.settled i log (world.store.commitLog log environment).1])
        ({ world.put i (.writing log) with
          store := (world.store.commitLog log environment).2.1 }.put i .over) ∧
      ({ world.put i (.writing log) with
        store := (world.store.commitLog log environment).2.1 }.put i .over).IsFree := by
  refine ⟨(hrun.1.step (.enter hrun.2 hstage)).step
    (.settle (stage_put_self world i _) environment), ?_⟩
  refine isFree_put (fun j hne other => ?_) (fun _ hother => by cases hother)
  show (world.put i (.writing log)).stage j ≠ _
  rw [stage_put_of_ne _ hne]
  exact hrun.2 j other

/-- The steps of a commit, with nothing in between, do what `Store.commit` does. -/
theorem exists_run_commit {σ : Type} (hfree : world.IsFree) {i : ι} {session : Session}
    (hstage : world.stage i = .active session) (environment : Environment σ) :
    ∃ events last, Run world events last ∧
      last.store = (world.store.commit session environment).2.1 := by
  rcases session.flush_cases with ⟨view, -, hflush⟩ | ⟨error, -, hflush⟩
  · have hrequest := Run.quiet ⟨.nil, hfree⟩ (.request hstage (by rw [hflush])) (by simp)
    have hturn := Run.turn hrequest (stage_put_self world i _) environment
    refine ⟨_, _, hturn.1, ?_⟩
    simp [Store.commit, hflush]
  · refine ⟨_, _, Run.nil.step (.refuse hstage (by rw [hflush])), ?_⟩
    simp [Store.commit, hflush]

end World

end MetricCatalog
