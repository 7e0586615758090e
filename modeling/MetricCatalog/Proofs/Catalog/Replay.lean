/-
# What a session shows

A session is written to and flushed in any order. Whatever came of it, it shows
the catalog it began on with the changes of its log, and a flush that fails
leaves no trace of the writes that it was to make.

If no session has committed since it began, its commit replays the log on the
same catalog. So it ends in what the session showed, under the next version.
-/

import Mathlib.Data.List.Induction
import MetricCatalog.Proofs.Catalog.Entries
import MetricCatalog.Proofs.Catalog.Serial

namespace MetricCatalog

namespace Session

/-- A call that writes to a session or flushes it. -/
inductive Call
  | push (mutation : Mutation)
  | flush

/-- The session after a call. -/
def call (session : Session) : Call → Session
  | .push mutation => session.push mutation
  | .flush => session.flush.2

/-- The session after calls, made one after another. -/
def after (session : Session) (calls : List Call) : Session := calls.foldl call session

/-- The calls up to the last flush. -/
def settledCalls (calls : List Call) : List Call :=
  (calls.reverse.dropWhile fun
    | .push _ => true
    | .flush => false).reverse

/-- The catalog that a commit makes of what a session shows. -/
def published (session : Session) : Catalog :=
  { session.view with version := session.view.version + 1 }

variable {base : Catalog} {session next : Session} {calls : List Call} {changes : List Mutation}
  {error : CatalogError}

theorem after_append (session : Session) (first second : List Call) :
    session.after (first ++ second) = (session.after first).after second :=
  List.foldl_append

/-! ## Flushing -/

theorem flush_eq_ok (hflush : session.flush.1 = .ok ()) :
    session.Makes session.pending session.flush.2 := by
  rcases session.flush_cases with ⟨view, happly, hok⟩ | ⟨error, -, herror⟩
  · rw [hok]
    exact ⟨happly, rfl, rfl⟩
  · rw [herror] at hflush
    cases hflush

theorem flush_eq_error (hflush : session.flush.1 = .error error) :
    session.view.applyAll session.pending = .error error ∧
      session.flush = (.error error, { session with pending := [] }) := by
  rcases session.flush_cases with ⟨view, -, hok⟩ | ⟨found, happly, herror⟩
  · rw [hok] at hflush
    cases hflush
  · rw [herror] at hflush
    cases hflush
    exact ⟨happly, herror⟩

theorem flush_error_iff :
    session.flush.1 = .error error ↔ session.view.applyAll session.pending = .error error := by
  constructor
  · intro hflush
    exact (flush_eq_error hflush).1
  · intro happly
    rw [flush, happly]

/-- With nothing buffered there is nothing to flush. -/
theorem flush_of_flushed (hflushed : session.pending = []) :
    session.flush = (.ok (), session) := by
  obtain ⟨view, pending, log⟩ := session
  obtain rfl : pending = [] := hflushed
  show (Except.ok (), (⟨view, [], log ++ []⟩ : Session)) = _
  rw [List.append_nil]

theorem pending_flush (session : Session) : session.flush.2.pending = [] := by
  rcases session.flush_cases with ⟨view, -, hflush⟩ | ⟨error, -, hflush⟩
  · rw [hflush]
  · rw [hflush]

end Session

/-- By induction on the log: it fails at the first change that cannot be made. -/
theorem Catalog.applyAll_eq_error {catalog : Catalog} {log : List Mutation} {error : CatalogError} :
    catalog.applyAll log = .error error ↔
      ∃ front mutation back middle, log = front ++ mutation :: back ∧
        catalog.applyAll front = .ok middle ∧ mutation.apply middle = .error error := by
  constructor
  · intro hfail
    induction log generalizing catalog with
    | nil => cases hfail
    | cons mutation rest ih =>
        rw [applyAll_cons] at hfail
        cases hfirst : mutation.apply catalog with
        | error found =>
            rw [hfirst] at hfail
            cases hfail
            exact ⟨[], mutation, rest, catalog, rfl, rfl, hfirst⟩
        | ok next =>
            rw [hfirst] at hfail
            obtain ⟨front, later, back, middle, rfl, hfront, hlater⟩ := ih hfail
            refine ⟨mutation :: front, later, back, middle, rfl, ?_, hlater⟩
            rw [applyAll_cons, hfirst]
            exact hfront
  · rintro ⟨front, mutation, back, middle, rfl, hfront, hmutation⟩
    rw [applyAll_append, hfront]
    show middle.applyAll (mutation :: back) = _
    rw [applyAll_cons, hmutation]
    rfl

namespace Session

variable {base : Catalog} {session next : Session} {calls : List Call} {changes : List Mutation}
  {error : CatalogError}

/-! ## The log -/

/-- A session shows a catalog with the changes of its log. -/
def Replays (base : Catalog) (session : Session) : Prop :=
  base.applyAll session.log = .ok session.view

theorem Replays.makes (hreplays : session.Replays base) (hmakes : session.Makes changes next) :
    next.Replays base := by
  rw [Replays, hmakes.log, Catalog.applyAll_append, hreplays]
  exact hmakes.view

theorem Replays.flush (hreplays : session.Replays base) : session.flush.2.Replays base := by
  cases hflush : session.flush.1 with
  | ok => exact hreplays.makes (flush_eq_ok hflush)
  | error error =>
      rw [(flush_eq_error hflush).2]
      exact hreplays

theorem Replays.call (hreplays : session.Replays base) (call : Call) :
    (session.call call).Replays base := by
  cases call with
  | push mutation => exact hreplays
  | flush => exact hreplays.flush

/-- By induction on the calls: each of them leaves a session that shows its log. -/
theorem replays_after (base : Catalog) (calls : List Call) :
    ((start base).after calls).Replays base := by
  induction calls using List.reverseRecOn with
  | nil => rfl
  | append_singleton calls call ih =>
      rw [after_append]
      exact ih.call call

/-! ## Writes that were discarded -/

/-- By induction on the calls: without the writes behind the last flush, nothing is buffered and
all else is the same. -/
theorem after_settledCalls (base : Catalog) (calls : List Call) :
    (start base).after (settledCalls calls) =
      { (start base).after calls with pending := [] } := by
  induction calls using List.reverseRecOn with
  | nil => rfl
  | append_singleton calls call ih =>
      cases call with
      | push mutation =>
          have hsame : settledCalls (calls ++ [.push mutation]) = settledCalls calls := by
            simp [settledCalls]
          rw [hsame, ih, after_append]
          rfl
      | flush =>
          have hall : settledCalls (calls ++ [.flush]) = calls ++ [.flush] := by
            simp [settledCalls]
          rw [hall, after_append]
          generalize (start base).after calls = session
          show session.flush.2 = { session.flush.2 with pending := [] }
          rw [← session.pending_flush]

/-- After a flush that fails it is as if the writes had never been made. -/
theorem after_failed_flush (hflush : ((start base).after calls).flush.1 = .error error)
    (more : List Call) :
    (start base).after (calls ++ .flush :: more) =
      (start base).after (settledCalls calls ++ more) := by
  rw [after_append, after_append, after_settledCalls]
  show ((start base).after calls).flush.2.after more = _
  rw [(flush_eq_error hflush).2]

end Session

/-! ## Commits -/

namespace World

open Session

variable {ι : Type} [DecidableEq ι]

/-- The calls of a session, as the events tell. -/
def callsIn (i : ι) (events : List (Event ι)) : List Call :=
  events.filterMap fun
    | .pushed j mutation => if j = i then some (.push mutation) else none
    | .flushed j _ => if j = i then some .flush else none
    | _ => none

/-- A session began on a catalog and has made some calls, and since it began no session has
committed. -/
def Undisturbed (world : World ι) (i : ι) (base : Catalog) (calls : List Call) : Prop :=
  ∃ store front back, Run (ofStore store) (front ++ .began i base :: back) world ∧
    acceptedIn back = [] ∧ callsIn i back = calls

/-- A session that was left by some calls has come to a stage. -/
def HasCome (session : Session) : Stage → Prop
  | .absent => False
  | .active found => found = session
  | .waiting log | .writing log => session.flush.1 = .ok () ∧ log = session.flush.2.log
  | .over => True

theorem callsIn_append (i : ι) (first second : List (Event ι)) :
    callsIn i (first ++ second) = callsIn i first ++ callsIn i second :=
  List.filterMap_append

/-- A step of a session that has begun is one of its calls, or it takes the session on. -/
theorem Step.hasCome {world next : World ι} {event : Event ι} (hstep : Step world event next)
    {i : ι} {session : Session} (hcome : HasCome session (world.stage i)) :
    HasCome (session.after (callsIn i [event])) (next.stage i) := by
  by_cases hother : event.session? = some i
  · cases hstep with
    | look => cases hother
    | begin hfree habsent =>
        cases hother
        rw [habsent] at hcome
        exact hcome.elim
    | push hstage mutation =>
        cases hother
        rw [hstage] at hcome
        cases hcome
        simp [HasCome, callsIn, after, call]
    | flush hstage =>
        cases hother
        rw [hstage] at hcome
        cases hcome
        simp [HasCome, callsIn, after, call]
    | request hstage hflush =>
        cases hother
        rw [hstage] at hcome
        cases hcome
        rw [stage_put_self]
        exact ⟨hflush, rfl⟩
    | enter hfree hstage =>
        cases hother
        rw [hstage] at hcome
        rw [stage_put_self]
        exact hcome
    | refuse | settle | fail =>
        cases hother
        rw [stage_put_self]
        trivial
  · have hnone : callsIn i [event] = [] := by
      cases event with
      | looked | began | requested | refused | entered | settled => rfl
      | pushed j mutation => simpa [callsIn] using fun hsame => hother (congrArg some hsame)
      | flushed j result => simpa [callsIn] using fun hsame => hother (congrArg some hsame)
    rw [hnone, hstep.stage_of_ne hother]
    exact hcome

/-- By induction on the run, from the step with which the session began: its calls have made it
what it is, and the store is as it was then. -/
theorem Run.undisturbed {store : Store} {events : List (Event ι)} {world : World ι}
    (hrun : Run (ofStore store) events world) {front back : List (Event ι)} {i : ι}
    {base : Catalog} (hevents : events = front ++ .began i base :: back)
    (hquiet : acceptedIn back = []) :
    HasCome ((start base).after (callsIn i back)) (world.stage i) ∧
      world.store.committed = base := by
  induction hrun generalizing back with
  | nil => simp at hevents
  | @step events world next event prior hstep ih =>
      rcases List.eq_nil_or_concat back with rfl | ⟨shorter, last, rfl⟩
      · obtain ⟨-, hlast⟩ := List.append_inj' hevents rfl
        obtain rfl := List.singleton_inj.mp hlast
        cases hstep with
        | begin hfree habsent =>
            rw [stage_put_self]
            exact ⟨rfl, rfl⟩
      · rw [List.concat_eq_append] at hevents hquiet ⊢
        rw [acceptedIn_append, List.append_eq_nil_iff, Option.toList_eq_nil_iff] at hquiet
        have hsplit : events ++ [event] = (front ++ .began i base :: shorter) ++ [last] := by
          simpa using hevents
        obtain ⟨rfl, hlast⟩ := List.append_inj' hsplit rfl
        obtain rfl := List.singleton_inj.mp hlast
        obtain ⟨hcome, hstore⟩ := ih rfl hquiet.1
        rw [callsIn_append, after_append]
        refine ⟨hstep.hasCome hcome, ?_⟩
        rcases hstep.store_cases with ⟨j, log, catalog, rfl, -, -⟩ | ⟨-, hsame⟩
        · cases hquiet.2
        · rw [hsame, hstore]

theorem Undisturbed.hasCome {world : World ι} {i : ι} {base : Catalog} {calls : List Call}
    (hundisturbed : world.Undisturbed i base calls) :
    HasCome ((start base).after calls) (world.stage i) ∧ world.store.committed = base := by
  obtain ⟨store, front, back, hrun, hquiet, rfl⟩ := hundisturbed
  exact hrun.undisturbed rfl hquiet

end World

namespace Store

variable {σ : Type} {store : Store} {session : Session} {log : List Mutation} {catalog : Catalog}
  {error : CatalogError}

/-- A commit puts a catalog in place, or the catalog cannot be written and nothing has changed. -/
def Publishes (store : Store) (catalog : Catalog) (result : Except StoreError Catalog)
    (next : Store) : Prop :=
  (result = .ok catalog ∧ next = { store with committed := catalog }) ∨
    ∃ storage error, store.storage = some storage ∧ result = .error (.storage error) ∧ next = store

/-- A catalog can be written to where the store is kept. -/
def CanKeep (store : Store) (catalog : Catalog) (environment : Environment σ) : Prop :=
  ∀ storage ∈ store.storage, (storage.write environment.now environment.files catalog).1 = .ok ()

/-- What the log of a session makes of the catalog it began on is what it publishes. -/
theorem replay_eq_published (hreplays : session.Replays store.committed) :
    store.replay session.log = .ok session.published := by
  rw [replay, hreplays]
  rfl

theorem commitLog_publishes (hreplay : store.replay log = .ok catalog)
    (environment : Environment σ) :
    store.Publishes catalog (store.commitLog log environment).1
        (store.commitLog log environment).2.1 ∧
      (store.CanKeep catalog environment → (store.commitLog log environment).1 = .ok catalog) := by
  rw [commitLog, hreplay]
  cases hstorage : store.storage with
  | none => exact ⟨Or.inl ⟨rfl, by rw [hstorage]⟩, fun _ => rfl⟩
  | some storage =>
      simp only
      cases hwrite : storage.write environment.now environment.files catalog with
      | mk outcome files =>
          cases outcome with
          | ok => exact ⟨Or.inl ⟨rfl, by rw [hstorage]⟩, fun _ => rfl⟩
          | error error =>
              refine ⟨Or.inr ⟨storage, error, hstorage, rfl, rfl⟩, fun hkeep => ?_⟩
              have hfail := hkeep storage hstorage
              rw [hwrite] at hfail
              cases hfail

theorem commit_of_flush_ok (hflush : session.flush.1 = .ok ()) (environment : Environment σ) :
    store.commit session environment = store.commitLog session.flush.2.log environment := by
  rw [commit]
  rcases session.flush_cases with ⟨view, -, hok⟩ | ⟨error, -, herror⟩
  · rw [hok]
  · rw [herror] at hflush
    cases hflush

theorem commit_of_flush_error (hflush : session.flush.1 = .error error)
    (environment : Environment σ) :
    store.commit session environment = (.error (.conflict error), store, environment) := by
  rw [commit, (Session.flush_eq_error hflush).2]

end Store

namespace World

open Session

variable {ι : Type} [DecidableEq ι]

/-- What a session is and how its commit ends. -/
structure Ends (world : World ι) (i : ι) (session : Session) : Prop where
  active : ∀ found, world.stage i = .active found → found = session
  failed : ∀ (σ : Type) (environment : Environment σ) error, session.flush.1 = .error error →
    world.store.commit session environment = (.error (.conflict error), world.store, environment)
  made : ∀ (σ : Type) (environment : Environment σ), session.flush.1 = .ok () →
    let commit := world.store.commit session environment
    world.store.Publishes session.flush.2.published commit.1 commit.2.1 ∧
      (world.store.CanKeep session.flush.2.published environment →
        commit.1 = .ok session.flush.2.published)
  refused : ∀ error next, Step world (.refused i error) next → session.flush.1 = .error error
  settled : ∀ log result next, Step world (.settled i log result) next →
    session.flush.1 = .ok () ∧
      world.store.Publishes session.flush.2.published result next.store

theorem Undisturbed.ends {world : World ι} {i : ι} {base : Catalog} {calls : List Call}
    (hundisturbed : world.Undisturbed i base calls) :
    world.Ends i ((start base).after calls) := by
  obtain ⟨hcome, hbase⟩ := hundisturbed.hasCome
  have hreplays := (replays_after base calls).flush
  generalize (start base).after calls = session at hcome hreplays
  rw [← hbase] at hreplays
  have hreplay := Store.replay_eq_published hreplays
  constructor
  · intro found hstage
    rw [hstage] at hcome
    exact hcome
  · intro σ environment error hflush
    exact Store.commit_of_flush_error hflush environment
  · intro σ environment hflush
    simp only [Store.commit_of_flush_ok hflush]
    exact Store.commitLog_publishes hreplay environment
  · intro error next hstep
    cases hstep with
    | refuse hstage hflush =>
        rw [hstage] at hcome
        cases hcome
        exact hflush
  · intro log result next hstep
    cases hstep with
    | settle hstage environment =>
        rw [hstage] at hcome
        obtain ⟨hflush, rfl⟩ := hcome
        exact ⟨hflush, (Store.commitLog_publishes hreplay environment).1⟩
    | fail hstage hfound hstorage error =>
        rw [hstage] at hcome
        exact ⟨hcome.1, Or.inr ⟨_, error, hstorage, rfl, rfl⟩⟩

/-- A session shows its log replayed on the catalog it began on, whatever calls were made on it. A
flush fails if one of the buffered writes cannot be made after those before it, and then it is as
if none of them had been there. As long as no session has committed since it began, its commit
fails with its flush and for want of a place to write to only, and it publishes what the session
shows under the next version. -/
theorem session_replays_log (base : Catalog) (calls : List Call) :
    let session := (start base).after calls
    base.applyAll session.log = .ok session.view ∧
    (∀ error, session.flush.1 = .error error ↔
      ∃ front mutation back middle, session.pending = front ++ mutation :: back ∧
        session.view.applyAll front = .ok middle ∧ mutation.apply middle = .error error) ∧
    (∀ error, session.flush.1 = .error error →
      session.flush.2 = { session with pending := [] } ∧
      ∀ more, (start base).after (calls ++ .flush :: more) =
        (start base).after (settledCalls calls ++ more)) ∧
    (session.flush.1 = .ok () → session.Makes session.pending session.flush.2) ∧
    session.flush.2.published = session.flush.2.view.withVersion (base.version + 1) ∧
    ∀ (ι : Type) [DecidableEq ι] (world : World ι) (i : ι), world.Undisturbed i base calls →
      world.Ends i session := by
  intro session
  refine ⟨replays_after base calls, ?_, ?_, flush_eq_ok, ?_, ?_⟩
  · intro error
    rw [flush_error_iff, Catalog.applyAll_eq_error]
  · intro error hflush
    refine ⟨?_, after_failed_flush hflush⟩
    rw [(flush_eq_error hflush).2]
  · have hversion := Catalog.version_applyAll (replays_after base calls).flush
    rw [published, hversion]
    rfl
  · intro ι _ world i hundisturbed
    exact hundisturbed.ends

/-- By induction on the calls: they can be made on any catalog with no other session about. -/
theorem exists_undisturbed (base : Catalog) (calls : List Call) :
    ∃ world : World Unit, world.Undisturbed () base calls ∧
      world.stage () = .active ((start base).after calls) := by
  induction calls using List.reverseRecOn with
  | nil =>
      have hfree := isFree_ofStore (ι := Unit) ⟨base, none⟩
      exact ⟨_, ⟨⟨base, none⟩, [], [], Run.nil.step (.begin hfree rfl), rfl, rfl⟩,
        stage_put_self ..⟩
  | append_singleton calls call ih =>
      obtain ⟨world, ⟨store, front, back, hrun, hquiet, hcalls⟩, hstage⟩ := ih
      rw [after_append]
      cases call with
      | push mutation =>
          have hpushed := hrun.step (.push hstage mutation)
          rw [List.append_assoc, List.cons_append] at hpushed
          refine ⟨_, ⟨store, front, _, hpushed, ?_, ?_⟩, stage_put_self ..⟩
          · rw [acceptedIn_append, hquiet]
            rfl
          · rw [callsIn_append, hcalls]
            rfl
      | flush =>
          have hflushed := hrun.step (.flush hstage)
          rw [List.append_assoc, List.cons_append] at hflushed
          refine ⟨_, ⟨store, front, _, hflushed, ?_, ?_⟩, stage_put_self ..⟩
          · rw [acceptedIn_append, hquiet]
            rfl
          · rw [callsIn_append, hcalls]
            rfl

/-- A session makes the warehouse, tries to drop a node that is not there and the warehouse with it,
and then drops the warehouse alone. -/
def changeOfMind : List Call :=
  [.push (.createDatabase warehouse), .flush, .push (.dropDatabase "warehouse"),
    .push (.dropNode "missing"), .flush, .push (.dropDatabase "warehouse")]

theorem session_replays_log_changeOfMind :
    ∃ world : World Unit, world.Undisturbed () .empty changeOfMind ∧
      ((start .empty).after changeOfMind).flush.1 = .ok () ∧
      world.Ends () ((start .empty).after changeOfMind) ∧
      ((start .empty).after changeOfMind).flush.2.published = { Catalog.empty with version := 1 } := by
  obtain ⟨world, hundisturbed, -⟩ := exists_undisturbed .empty changeOfMind
  obtain ⟨-, -, -, -, -, hends⟩ := session_replays_log .empty changeOfMind
  exact ⟨world, hundisturbed, by decide, hends Unit world () hundisturbed, by decide⟩

end World

end MetricCatalog
