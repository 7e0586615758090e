/-
# Commits come one after another

However sessions interleave, the catalog of a store is what the commits that
succeeded make of the first one, in the order in which they ended. It does not
matter on what catalog a session began: its log is replayed on the latest one,
and if it does not fit there nothing of it is kept.
-/

import Mathlib.Algebra.Group.Nat.Defs
import MetricCatalog.Proofs.Catalog.Change
import MetricCatalog.Proofs.Catalog.World
import MetricCatalog.Proofs.History

namespace MetricCatalog

/-- A catalog is what comes of committing logs, one after another, to a first catalog. -/
structure Catalog.IsSerial (first : Catalog) (logs : List (List Mutation)) (last : Catalog) :
    Prop where
  replayed : first.applyAll logs.flatten = .ok (last.withVersion first.version)
  version : last.version.toNat = first.version.toNat + logs.length

namespace World

open History

variable {ι : Type}

/-- The writes of a session agree with where it stands. -/
def Writes.Fits (writes : Writes) : Stage → Prop
  | .absent => writes = ⟨[], []⟩
  | .active session => writes = ⟨session.log, session.pending⟩
  | .waiting log | .writing log => writes.flushed = log
  | .over => True

/-- What an event may show: the catalog made by the commits before it, and of a commit that
succeeds the one made by it too. What is committed are the flushed writes of the session. -/
def Shows [DecidableEq ι] (first : Catalog) (before : List (Event ι)) : Event ι → Prop
  | .looked catalog | .began _ catalog => first.IsSerial (acceptedIn before) catalog
  | .settled i log result =>
      log = (writesIn i before).flushed ∧
        ∀ catalog, result = .ok catalog → first.IsSerial (acceptedIn before ++ [log]) catalog
  | _ => True

/-! ## One commit more -/

theorem isSerial_nil (catalog : Catalog) : catalog.IsSerial [] catalog := ⟨rfl, rfl⟩

theorem exists_applyAll_of_replay {store : Store} {log : List Mutation} {next : Catalog}
    (hreplay : store.replay log = .ok next) :
    store.committed.applyAll log = .ok (next.withVersion store.committed.version) ∧
      next.version = store.committed.version + 1 := by
  unfold Store.replay at hreplay
  cases happly : store.committed.applyAll log with
  | error error =>
      rw [happly] at hreplay
      cases hreplay
  | ok catalog =>
      rw [happly] at hreplay
      cases hreplay
      have hversion := Catalog.version_applyAll happly
      refine ⟨congrArg Except.ok ?_, ?_⟩
      · rw [← hversion]
        rfl
      · rw [← hversion]

/-- The version of the first catalog takes no part in the replay, so it can be the one the log was
replayed under. -/
theorem isSerial_concat {first : Catalog} {logs : List (List Mutation)} {store : Store}
    {log : List Mutation} {next : Catalog} (hserial : first.IsSerial logs store.committed)
    (hreplay : store.replay log = .ok next)
    (hroom : first.version.toNat + (logs ++ [log]).length < 2 ^ 64) :
    first.IsSerial (logs ++ [log]) next := by
  obtain ⟨happly, hversion⟩ := exists_applyAll_of_replay hreplay
  constructor
  · rw [List.flatten_append, List.flatten_singleton, Catalog.applyAll_append, hserial.replayed]
    show (store.committed.withVersion first.version).applyAll log = _
    rw [Catalog.applyAll_withVersion, happly]
    rfl
  · rw [List.length_append, List.length_singleton] at hroom ⊢
    rw [hversion, UInt64.toNat_add, hserial.version]
    show (first.version.toNat + logs.length + 1) % 2 ^ 64 = _
    rw [Nat.mod_eq_of_lt (by omega), Nat.add_assoc]

variable [DecidableEq ι]

/-! ## The writes of a session -/

theorem writesIn_append (i : ι) (events : List (Event ι)) (event : Event ι) :
    writesIn i (events ++ [event]) = (writesIn i events).after i event :=
  List.foldl_concat ..

/-- A step about a session changes its writes as the event says. -/
theorem Step.fits {world next : World ι} {event : Event ι} (hstep : Step world event next) {i : ι}
    (hsession : event.session? = some i) {writes : Writes}
    (hfits : writes.Fits (world.stage i)) : (writes.after i event).Fits (next.stage i) := by
  cases hstep with
  | look => cases hsession
  | begin hfree hstage =>
      cases hsession
      rw [hstage] at hfits
      rw [stage_put_self]
      exact hfits
  | push hstage mutation =>
      cases hsession
      rw [hstage] at hfits
      cases hfits
      simp [Writes.after, Writes.Fits, Session.push]
  | @flush _ session hstage =>
      cases hsession
      rw [hstage] at hfits
      cases hfits
      rcases session.flush_cases with ⟨view, -, hflush⟩ | ⟨error, -, hflush⟩
      · simp [Writes.after, Writes.Fits, hflush]
      · simp [Writes.after, Writes.Fits, hflush]
  | @request _ session hstage hflush =>
      cases hsession
      rw [hstage] at hfits
      cases hfits
      rcases session.flush_cases with ⟨view, -, hok⟩ | ⟨error, -, herror⟩
      · simp [Writes.after, Writes.Fits, hok]
      · rw [herror] at hflush
        cases hflush
  | enter hfree hstage =>
      cases hsession
      rw [hstage] at hfits
      rw [stage_put_self]
      exact hfits
  | refuse | settle | fail =>
      cases hsession
      rw [stage_put_self]
      trivial

theorem Run.fits {store : Store} {events : List (Event ι)} {world : World ι}
    (hrun : Run (ofStore store) events world) (i : ι) :
    (writesIn i events).Fits (world.stage i) := by
  induction hrun with
  | nil => rfl
  | @step events world next event _ hstep ih =>
      rw [writesIn_append]
      by_cases hsession : event.session? = some i
      · exact hstep.fits hsession ih
      · rw [Writes.after_of_ne _ hsession, hstep.stage_of_ne hsession]
        exact ih

/-! ## The catalog of a run -/

omit [DecidableEq ι] in
theorem acceptedIn_append (events : List (Event ι)) (event : Event ι) :
    acceptedIn (events ++ [event]) = acceptedIn events ++ event.accepted?.toList :=
  filterMap_concat ..

variable {store : Store} {events : List (Event ι)} {world : World ι}

/-- By induction on the run: only a commit that succeeds changes the store, and it replays its log
on what the commits before it have made. -/
theorem Run.isSerial (hrun : Run (ofStore store) events world)
    (hroom : store.committed.version.toNat + (acceptedIn events).length < 2 ^ 64) :
    store.committed.IsSerial (acceptedIn events) world.store.committed := by
  induction hrun with
  | nil => exact isSerial_nil _
  | step _ hstep ih =>
      rw [acceptedIn_append] at hroom ⊢
      have hprior := ih (by
        rw [List.length_append] at hroom
        omega)
      rcases hstep.store_cases with ⟨i, log, catalog, rfl, hreplay, hnext⟩ | ⟨hnone, hnext⟩
      · rw [hnext]
        exact isSerial_concat hprior hreplay hroom
      · rw [hnone, hnext, Option.toList_none, List.append_nil]
        exact hprior

/-- What a step shows follows from the catalog and the stages of the world it starts from. -/
theorem Step.shows {next : World ι} {event : Event ι} (hstep : Step world event next)
    {first : Catalog} (hserial : first.IsSerial (acceptedIn events) world.store.committed)
    (hfits : ∀ i, (writesIn i events).Fits (world.stage i))
    (hroom : first.version.toNat + (acceptedIn (events ++ [event])).length < 2 ^ 64) :
    Shows first events event := by
  have hlater : ∀ i log catalog, event = .settled i log (.ok catalog) →
      first.IsSerial (acceptedIn events ++ [log]) catalog := by
    rintro i log catalog rfl
    rcases hstep.store_cases with ⟨j, other, found, heq, hreplay, -⟩ | ⟨hnone, -⟩
    · cases heq
      rw [acceptedIn_append] at hroom
      exact isSerial_concat hserial hreplay hroom
    · cases hnone
  have hlog : ∀ i log, world.stage i = .writing log → log = (writesIn i events).flushed := by
    intro i log hstage
    have hwrites := hfits i
    rw [hstage] at hwrites
    exact hwrites.symm
  cases hstep with
  | look | begin => exact hserial
  | settle hstage => exact ⟨hlog _ _ hstage, fun catalog hok => hlater _ _ catalog (by rw [hok])⟩
  | fail hstage => exact ⟨hlog _ _ hstage, fun _ hok => by cases hok⟩
  | push | flush | request | refuse | enter => trivial

theorem Run.along_shows (hrun : Run (ofStore store) events world)
    (hroom : store.committed.version.toNat + (acceptedIn events).length < 2 ^ 64) :
    Along (Shows store.committed) events := by
  induction hrun with
  | nil => exact along_nil _
  | step prior hstep ih =>
      have hprior := hroom
      rw [acceptedIn_append, List.length_append] at hprior
      exact (ih (by omega)).concat
        (hstep.shows (prior.isSerial (by omega)) (fun i => prior.fits i) hroom)

/-- In every run of any number of sessions, with files that change and fail as they like: the
catalog is the first one with the flushed logs of the commits that succeeded, in order, and its
version counts them; whoever looks, begins or commits is shown such a catalog; and a step that is
not a commit that succeeds leaves the store as it is. -/
theorem run_serial {store : Store} {events : List (Event ι)} {world : World ι}
    (hrun : Run (ofStore store) events world)
    (hroom : store.committed.version.toNat + (acceptedIn events).length < 2 ^ 64) :
    store.committed.IsSerial (acceptedIn events) world.store.committed ∧
    Along (Shows store.committed) events ∧
    ∀ event next, Step world event next → event.accepted? = none → next.store = world.store := by
  refine ⟨hrun.isSerial hroom, hrun.along_shows hroom, fun event next hstep hnone => ?_⟩
  rcases hstep.store_cases with ⟨i, log, catalog, rfl, -, -⟩ | ⟨-, hnext⟩
  · cases hnone
  · exact hnext

/-- The warehouse that two sessions want to make. -/
def warehouse : Database := ⟨.ofNat 1, "warehouse", "sqlite://", none, ⟨0, 0⟩, ⟨0, 0⟩⟩

/-- Two sessions begin on the empty catalog and make a database of the same name. The first one to
commit has it, and the other one fails. -/
def conflictEvents : List (Event Nat) :=
  [.began 0 .empty, .began 1 .empty, .pushed 0 (.createDatabase warehouse),
    .pushed 1 (.createDatabase warehouse), .requested 0, .requested 1, .entered 0,
    .settled 0 [.createDatabase warehouse]
      (.ok { Catalog.empty with version := 1, databases := .ofList [("warehouse", warehouse)] }),
    .entered 1,
    .settled 1 [.createDatabase warehouse]
      (.error (.conflict (.duplicateName .database "warehouse")))]

theorem run_conflictEvents : ∃ world, Run (ofStore .inMemory) conflictEvents world := by
  have hbegin := Run.quiet ⟨.nil, isFree_ofStore .inMemory⟩
    (.begin (i := 0) (isFree_ofStore _) rfl) (by simp)
  have hbegun := Run.quiet hbegin (.begin (i := 1) hbegin.2 rfl) (by simp)
  have hpush := Run.quiet hbegun (.push (i := 0) rfl (.createDatabase warehouse)) (by simp)
  have hpushed := Run.quiet hpush (.push (i := 1) rfl (.createDatabase warehouse)) (by simp)
  have hrequest := Run.quiet hpushed (.request (i := 0) rfl rfl) (by simp)
  have hrequested := Run.quiet hrequest (.request (i := 1) rfl rfl) (by simp)
  have hfirst := Run.turn (i := 0) hrequested rfl
    (⟨⟨.empty, []⟩, ⟨0, 0⟩, 0, ()⟩ : Environment Unit)
  have hsecond := Run.turn (i := 1) hfirst rfl
    (⟨⟨.empty, []⟩, ⟨0, 0⟩, 0, ()⟩ : Environment Unit)
  exact ⟨_, hsecond.1⟩

theorem run_serial_conflictEvents :
    ∃ world, Run (ofStore .inMemory) conflictEvents world ∧
      Store.inMemory.committed.version.toNat + (acceptedIn conflictEvents).length < 2 ^ 64 ∧
      Store.inMemory.committed.IsSerial [[.createDatabase warehouse]] world.store.committed := by
  obtain ⟨world, hrun⟩ := run_conflictEvents
  have hroom : Store.inMemory.committed.version.toNat + (acceptedIn conflictEvents).length <
      2 ^ 64 := by decide
  exact ⟨world, hrun, hroom, (run_serial hrun hroom).1⟩

end World

end MetricCatalog
