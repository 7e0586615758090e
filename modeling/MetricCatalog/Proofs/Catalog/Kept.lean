/-
# Which updates are kept

A store goes on from the catalog that it remembers. If no other store has put a
commit at the path since it was opened, that is the catalog in the file, and the
next commit keeps what is there. As long as every commit is put there by such a
store, the file holds all commits, one after another.

A store that was opened before another one wrote does not know about that. Its
commit succeeds, and what the other one wrote is gone.
-/

import Mathlib.Algebra.Group.Nat.Defs
import MetricCatalog.Proofs.Catalog.Shared

namespace MetricCatalog

/-- The catalog from which the next commit of a store goes on. -/
def OpenStore.latest {ι : Type} (store : OpenStore ι) : Catalog :=
  match store.writing with
  | some ⟨_, _, catalog, []⟩ => catalog
  | _ => store.world.store.committed

namespace Shared

open History

variable {κ ι : Type}

/-- Since a store was opened, no other one has put a commit at the path. -/
def Sees (k : κ) (events : List (Event κ ι)) : Prop :=
  Since (fun event => ∃ base, event = .opened k base)
    (fun event => ∀ write ∈ event.write?, write.store = k) events

/-- Who puts a commit at the path sees what was put there before. -/
def Informed (before : List (Event κ ι)) (event : Event κ ι) : Prop :=
  ∀ write ∈ event.write?, Sees write.store before

/-- What was put at the path reads back as itself. -/
def Readable (events : List (Event κ ι)) : Prop :=
  ∀ write ∈ writesIn events,
    Storage.decode (.text (Storage.encode write.catalog)) = .ok write.catalog

/-- The versions do not run out. -/
def HasRoom (events : List (Event κ ι)) : Prop :=
  ∀ k base, .opened k base ∈ events → base.version.toNat + (writesIn events).length < 2 ^ 64

/-- A catalog is what the commits at the path have made of one with which a store was opened. -/
structure IsLatest (events : List (Event κ ι)) (catalog : Catalog) : Prop where
  serial : ∃ k base, .opened k base ∈ events ∧
    base.IsSerial ((writesIn events).map Write.log) catalog
  last : ∀ write ∈ (writesIn events).getLast?, write.catalog = catalog

/-- The stores that see what is at the path go on from there, and it has all commits. -/
structure Kept (events : List (Event κ ι)) (shared : Shared κ ι) : Prop where
  latest : ∀ k store, shared.stores k = some store → Sees k events → IsLatest events store.latest
  written : ∀ write ∈ (writesIn events).getLast?, IsLatest events write.catalog

/-! ## What a store goes on from -/

theorem latest_of_idle {store : OpenStore ι} (hidle : store.writing = none) :
    store.latest = store.world.store.committed := by
  simp [OpenStore.latest, hidle]

theorem latest_of_remaining {store : OpenStore ι} {writing : Writing ι}
    (hwriting : store.writing = some writing) (hremaining : writing.remaining ≠ []) :
    store.latest = store.world.store.committed := by
  unfold OpenStore.latest
  rw [hwriting]
  obtain ⟨session, log, catalog, remaining⟩ := writing
  cases remaining with
  | nil => exact absurd rfl hremaining
  | cons => rfl

theorem latest_of_done {store : OpenStore ι} {writing : Writing ι}
    (hwriting : store.writing = some writing) (hremaining : writing.remaining = []) :
    store.latest = writing.catalog := by
  unfold OpenStore.latest
  rw [hwriting]
  obtain ⟨session, log, catalog, remaining⟩ := writing
  subst hremaining
  rfl

variable {path : Path} {process : κ → Uuid} {shared next : Shared κ ι}
  {events : List (Event κ ι)} {event : Event κ ι}

/-- A store that sees what is at the path has just been opened, or it has seen what was there
before, and no other store has put anything there now. -/
theorem Sees.cases {k : κ} (hsees : Sees k (events ++ [event])) :
    (∃ base, event = .opened k base) ∨
      Sees k events ∧ ∀ write ∈ event.write?, write.store = k :=
  since_concat.mp hsees

theorem Readable.of_append (hreadable : Readable (events ++ [event])) : Readable events :=
  fun write hwrite => hreadable write (mem_writesIn_append hwrite)

theorem HasRoom.of_append (hroom : HasRoom (events ++ [event])) : HasRoom events := by
  intro k base hopened
  have hbound := hroom k base (List.mem_append_left _ hopened)
  rw [writesIn_append, List.length_append] at hbound
  omega

theorem IsLatest.quiet {catalog : Catalog} (hlatest : IsLatest events catalog)
    (hwrite : event.write? = none) : IsLatest (events ++ [event]) catalog := by
  obtain ⟨k, base, hopened, hserial⟩ := hlatest.serial
  constructor
  · rw [writesIn_append_of_none hwrite]
    exact ⟨k, base, List.mem_append_left _ hopened, hserial⟩
  · rw [writesIn_append_of_none hwrite]
    exact hlatest.last

/-- A commit that goes on from the latest catalog makes the next one. -/
theorem IsLatest.write {store : Store} {k : κ} {log : List Mutation} {catalog : Catalog}
    (hlatest : IsLatest events store.committed) (hreplay : store.replay log = .ok catalog)
    (hwrite : event.write? = some ⟨k, log, catalog⟩)
    (hroom : HasRoom (events ++ [event])) : IsLatest (events ++ [event]) catalog := by
  obtain ⟨j, base, hopened, hserial⟩ := hlatest.serial
  have hwrites : writesIn (events ++ [event]) = writesIn events ++ [⟨k, log, catalog⟩] := by
    rw [writesIn_append, hwrite, Option.toList_some]
  have hlogs : (writesIn (events ++ [event])).map Write.log =
      (writesIn events).map Write.log ++ [log] := by
    rw [hwrites, List.map_append]
    rfl
  constructor
  · refine ⟨j, base, List.mem_append_left _ hopened, ?_⟩
    rw [hlogs]
    apply World.isSerial_concat hserial hreplay
    rw [← hlogs, List.length_map]
    exact hroom j base (List.mem_append_left _ hopened)
  · rw [hwrites, List.getLast?_concat]
    rintro _ ⟨⟩
    rfl

theorem Consistent.read_eq (hconsistent : Consistent path process events shared)
    (hreadable : Readable events) {write : Write κ} (hlast : write ∈ (writesIn events).getLast?) :
    Storage.read shared.files path = .ok (some write.catalog) := by
  rw [Storage.read, hconsistent.file write hlast]
  simp only [hreadable write (List.mem_of_getLast? hlast)]
  rfl

/-- A step that puts nothing at the path, after which every store goes on from where it did. -/
theorem Kept.quiet (hkept : Kept events shared) (hwrite : event.write? = none)
    (hopened : ∀ k base, event ≠ .opened k base)
    (hnext : ∀ j after, next.stores j = some after →
      ∃ before, shared.stores j = some before ∧ after.latest = before.latest) :
    Kept (events ++ [event]) next := by
  constructor
  · intro j after hafter hsees
    obtain ⟨before, hbefore, hlatest⟩ := hnext j after hafter
    rw [hlatest]
    rcases hsees.cases with ⟨base, heq⟩ | ⟨hsees, -⟩
    · exact absurd heq (hopened j base)
    · exact (hkept.latest j before hbefore hsees).quiet hwrite
  · rw [writesIn_append_of_none hwrite]
    exact fun write hlast => (hkept.written write hlast).quiet hwrite

variable [DecidableEq κ]

theorem latest_set {files : FileTree} {k : κ} {before after : OpenStore ι}
    (hbefore : shared.stores k = some before) (hlatest : after.latest = before.latest) :
    ∀ j found, ({ shared with files := files }.set k after).stores j = some found →
      ∃ earlier, shared.stores j = some earlier ∧ found.latest = earlier.latest := by
  intro j found hfound
  rcases stores_set hfound with ⟨rfl, rfl⟩ | ⟨-, hfound⟩
  · exact ⟨before, hbefore, hlatest⟩
  · exact ⟨found, hfound, rfl⟩

/-- A store that is opened goes on from what the last commit has put at the path. -/
theorem Kept.start (hkept : Kept events shared)
    (hconsistent : Consistent path process events shared) (hreadable : Readable events)
    {found : Option Catalog} (hread : Storage.read shared.files path = .ok found) (k : κ)
    (storage : Option Storage) :
    Kept (events ++ [.opened k (found.getD .empty)])
      (shared.set k ⟨.ofStore ⟨found.getD .empty, storage⟩, none⟩) := by
  have hwrite : (Event.opened k (found.getD .empty) : Event κ ι).write? = none := rfl
  constructor
  · intro j store hstore hsees
    rcases stores_set hstore with ⟨rfl, rfl⟩ | ⟨hne, hstore⟩
    · show IsLatest _ (found.getD .empty)
      cases hlast : (writesIn events).getLast? with
      | none =>
          rw [List.getLast?_eq_none_iff] at hlast
          constructor
          · rw [writesIn_append_of_none hwrite, hlast]
            exact ⟨j, _, List.mem_concat_self, World.isSerial_nil _⟩
          · rw [writesIn_append_of_none hwrite, hlast]
            rintro _ ⟨⟩
      | some write =>
          have hfound := hconsistent.read_eq hreadable hlast
          obtain rfl : found = some write.catalog := Except.ok.inj (hread.symm.trans hfound)
          exact (hkept.written write hlast).quiet hwrite
    · rcases hsees.cases with ⟨base, heq⟩ | ⟨hsees, -⟩
      · cases heq
        exact absurd rfl hne
      · exact (hkept.latest j store hstore hsees).quiet hwrite
  · rw [writesIn_append_of_none hwrite]
    exact fun write hlast => (hkept.written write hlast).quiet hwrite

/-- A step with the files: only the renaming counts, and the store that does it sees what is at the
path. Other stores that were opened before do not see it any more. -/
theorem Kept.perform (hkept : Kept events shared)
    (hconsistent : Consistent path process events shared) {k : κ} {store : OpenStore ι}
    {writing : Writing ι} {step : FileStep} {rest : List FileStep} {files : FileTree}
    (hstore : shared.stores k = some store) (hwriting : store.writing = some writing)
    (hnext : writing.remaining = step :: rest)
    (hinformed : Informed events (.performed k writing.log writing.catalog step))
    (hroom : HasRoom (events ++ [.performed k writing.log writing.catalog step])) :
    Kept (events ++ [.performed k writing.log writing.catalog step])
      ({ shared with files := files }.set k { store with
        writing := some { writing with remaining := rest } }) := by
  have hfits := hconsistent.stores k store hstore
  have hcommitted : store.latest = store.world.store.committed :=
    latest_of_remaining hwriting (by simp [hnext])
  have hphase := hfits.phase writing hwriting
  rw [hnext] at hphase
  cases hphase with
  | directories | write =>
      apply hkept.quiet rfl (by simp) (latest_set hstore ?_)
      rw [hcommitted]
      exact latest_of_remaining rfl (by simp)
  | rename =>
      have hlatest := hkept.latest k store hstore (hinformed _ rfl)
      rw [hcommitted] at hlatest
      have hnew := hlatest.write (hfits.replayed writing hwriting) rfl hroom
      constructor
      · intro j after hafter hall
        rcases stores_set hafter with ⟨rfl, rfl⟩ | ⟨hne, hafter⟩
        · exact hnew
        · rcases hall.cases with ⟨base, heq⟩ | ⟨-, hown⟩
          · cases heq
          · exact absurd (hown _ rfl).symm hne
      · intro write hlast
        rw [hnew.last write hlast]
        exact hnew

variable [DecidableEq ι]

theorem Step.kept (hstep : Step path process shared event next) (hkept : Kept events shared)
    (hconsistent : Consistent path process events shared)
    (hreadable : Readable events) (hinformed : Informed events event)
    (hroom : HasRoom (events ++ [event])) : Kept (events ++ [event]) next := by
  cases hstep with
  | start hclosed hread => exact hkept.start hconsistent hreadable hread _ _
  | inside hstore hstep hquiet =>
      apply hkept.quiet rfl (by simp) (latest_set hstore ?_)
      have hsame := hstep.store_eq hquiet
      simp only [OpenStore.latest, hsame]
  | conflict hstore hidle hstage hreplay =>
      apply hkept.quiet rfl (by simp) (latest_set hstore ?_)
      rw [latest_of_idle hidle]
      rfl
  | prepare hstore hidle hstage hreplay hstorage =>
      apply hkept.quiet rfl (by simp) (latest_set hstore ?_)
      rw [latest_of_idle hidle]
      apply latest_of_remaining rfl
      apply Storage.writeSteps_ne_nil
  | perform hstore hwriting hnext hfiles =>
      exact hkept.perform hconsistent hstore hwriting hnext hinformed hroom
  | fail hstore hwriting hnext hfiles error =>
      apply hkept.quiet rfl (by simp) (latest_set hstore ?_)
      rw [latest_of_remaining hwriting (by simp [hnext])]
      rfl
  | settle hstore hwriting hdone =>
      apply hkept.quiet rfl (by simp) (latest_set hstore ?_)
      rw [latest_of_done hwriting hdone]
      rfl

variable {files : FileTree}

/-- By induction on the run: what is asked of a longer one holds of what came before. -/
theorem Run.kept (hprocess : ∀ j k, j ≠ k → (process j).format ≠ (process k).format)
    (hrun : Run path process (closed files) events shared) (hreadable : Readable events)
    (hinformed : Along Informed events) (hroom : HasRoom events) : Kept events shared := by
  induction hrun with
  | nil => exact ⟨by simp [closed], by simp [writesIn]⟩
  | @step events shared next event hprior hstep ih =>
      have hkept := ih hreadable.of_append hinformed.of_append hroom.of_append
      exact hstep.kept hkept (hprior.consistent hprocess) hreadable.of_append
        (hinformed events event [] rfl) hroom

/-- If every commit is put at the path by a store since whose opening no other store has done so,
then no update is lost: whatever has returned without an error was put there, and what is read
from the path is what all these commits, one after another, have made of the first catalog. -/
theorem run_keeps_writes (hprocess : ∀ j k, j ≠ k → (process j).format ≠ (process k).format)
    (hrun : Run path process (closed files) events shared) (hreadable : Readable events)
    (hinformed : Along Informed events) (hroom : HasRoom events) :
    (∀ k log catalog, .returned k log (.ok catalog) ∈ events →
      ⟨k, log, catalog⟩ ∈ writesIn events) ∧
    ∀ write ∈ (writesIn events).getLast?,
      Storage.read shared.files path = .ok (some write.catalog) ∧
      ∃ k base, .opened k base ∈ events ∧
        base.IsSerial ((writesIn events).map Write.log) write.catalog := by
  have hconsistent := hrun.consistent hprocess
  have hkept := hrun.kept hprocess hreadable hinformed hroom
  refine ⟨hconsistent.returned, fun write hlast => ⟨?_, (hkept.written write hlast).serial⟩⟩
  exact hconsistent.read_eq hreadable hlast

/-! ## Two stores -/

def catalogPath : Path := ⟨"catalog.json"⟩

/-- Two processes work with the catalog. -/
def processOf (k : Fin 2) : Uuid := .ofNat k

/-- An empty catalog after some commits. -/
def counted (version : UInt64) : Catalog := { Catalog.empty with version := version }

/-- The files when such a catalog has been written. -/
def holding (version : UInt64) : FileTree :=
  ⟨.ofList [(["catalog.json"], .file (.text (Storage.encode (counted version))) ⟨0, 0⟩)], []⟩

/-- What happens when a store is opened, and a session without writes is committed. -/
def turn (k : Fin 2) (version : UInt64) : List (Event (Fin 2) Unit) :=
  [.opened k (counted version), .inside k (.began () (counted version)), .inside k (.requested ()),
    .inside k (.entered ()), .prepared k [] (counted (version + 1))] ++
    ((Storage.writeSteps ⟨catalogPath, processOf k⟩ (counted (version + 1))).map
      (.performed k [] (counted (version + 1))) ++ [.returned k [] (.ok (counted (version + 1)))])

section

variable {first shared : Shared (Fin 2) Unit} {events : List (Event (Fin 2) Unit)} {k : Fin 2}
  {version : UInt64}

theorem stores_set_self (store : OpenStore Unit) : (shared.set k store).stores k = some store :=
  Function.update_self ..

theorem Run.turn {found : Option Catalog} {files : FileTree}
    (hrun : Run catalogPath processOf first events shared) (hclosed : shared.stores k = none)
    (hread : Storage.read shared.files catalogPath = .ok found)
    (hfound : found.getD .empty = counted version)
    (hall : FileStep.performAll ⟨0, 0⟩ shared.files
      (Storage.writeSteps ⟨catalogPath, processOf k⟩ (counted (version + 1))) = (.ok (), files)) :
    ∃ store, Run catalogPath processOf first (events ++ Shared.turn k version)
      ({ shared with files := files }.set k store) := by
  have hopened := hrun.step (.start hclosed hread)
  rw [hfound] at hopened
  have hbegan := hopened.step (.inside (stores_set_self _)
    (.begin (i := ()) (World.isFree_ofStore _) rfl) (by simp))
  have hrequested := hbegan.step (.inside (stores_set_self _)
    (.request (World.stage_put_self ..) rfl) (by simp))
  have hentered := hrequested.step (.inside (stores_set_self _)
    (.enter (World.isFree_put (by simp) (by simp)) (World.stage_put_self ..)) (by simp))
  have hprepared := hentered.step
    (.prepare (stores_set_self _) rfl (World.stage_put_self ..) rfl rfl)
  obtain ⟨done, hdone, hend⟩ := hprepared.exists_returned (stores_set_self _) hall
  rw [hdone rfl] at hend
  simp only [List.append_assoc, set_set] at hend
  exact ⟨_, hend⟩

theorem store_of_mem_turn {event : Event (Fin 2) Unit} (hevent : event ∈ turn k version)
    {write : Write (Fin 2)} (hwrite : event.write? = some write) : write.store = k := by
  simp only [turn, List.mem_append, List.mem_cons, List.mem_map, List.not_mem_nil,
    or_false] at hevent
  rcases hevent with (rfl | rfl | rfl | rfl | rfl) | ⟨step, -, rfl⟩ | rfl
  · cases hwrite
  · cases hwrite
  · cases hwrite
  · cases hwrite
  · cases hwrite
  · cases step with
    | makeDirectories | write => cases hwrite
    | rename =>
        cases hwrite
        rfl
  · cases hwrite

theorem along_turn (hevents : Along Informed events) :
    Along Informed (events ++ turn k version) := by
  apply hevents.append
  intro before event after hsplit write hwrite
  have hown : ∀ other ∈ turn k version, ∀ write ∈ other.write?, write.store = k :=
    fun other hother write hwrite => store_of_mem_turn hother hwrite
  rw [hown event (by rw [hsplit]; simp) write hwrite]
  cases before with
  | nil =>
      obtain ⟨rfl, -⟩ := List.cons.inj hsplit
      cases hwrite
  | cons opening before =>
      obtain ⟨rfl, -⟩ := List.cons.inj hsplit
      refine ⟨events, _, before, rfl, ⟨_, rfl⟩, fun other hother => hown other ?_⟩
      rw [hsplit]
      exact List.mem_append_left _ (List.mem_cons_of_mem _ hother)

end

theorem run_keeps_writes_inTurn : ∃ last : Shared (Fin 2) Unit,
    Run catalogPath processOf (closed ⟨.empty, []⟩) (turn 0 0 ++ turn 1 1) last ∧
    writesIn (turn 0 0 ++ turn 1 1) = [⟨0, [], counted 1⟩, ⟨1, [], counted 2⟩] ∧
    Storage.read last.files catalogPath = .ok (some (counted 2)) ∧
    ∃ k base, .opened k base ∈ turn 0 0 ++ turn 1 1 ∧ base.IsSerial [[], []] (counted 2) := by
  have hempty : Storage.read ⟨.empty, []⟩ catalogPath = .ok none := by decide +kernel
  have hfirst : FileStep.performAll ⟨0, 0⟩ ⟨.empty, []⟩
      (Storage.writeSteps ⟨catalogPath, processOf 0⟩ (counted 1)) = (.ok (), holding 1) := by
    decide +kernel
  have hread : Storage.read (holding 1) catalogPath = .ok (some (counted 1)) := by decide +kernel
  have hsecond : FileStep.performAll ⟨0, 0⟩ (holding 1)
      (Storage.writeSteps ⟨catalogPath, processOf 1⟩ (counted 2)) = (.ok (), holding 2) := by
    decide +kernel
  have hnil : Run catalogPath processOf (closed ⟨.empty, []⟩ : Shared (Fin 2) Unit) [] _ := .nil
  obtain ⟨store, hrun⟩ := hnil.turn rfl hempty rfl hfirst
  obtain ⟨other, hrun⟩ := hrun.turn (k := 1) rfl hread rfl hsecond
  have hinformed : Along Informed ([] ++ turn 0 0 ++ turn 1 1) :=
    along_turn (along_turn (along_nil _))
  have hwrites : writesIn (turn 0 0 ++ turn 1 1) = [⟨0, [], counted 1⟩, ⟨1, [], counted 2⟩] := rfl
  have hkeeps := run_keeps_writes (by decide +kernel) hrun ?_ hinformed ?_
  · obtain ⟨hread, hserial⟩ := hkeeps.2 ⟨1, [], counted 2⟩ rfl
    exact ⟨_, hrun, hwrites, hread, hserial⟩
  · simp only [Readable, List.nil_append, hwrites, List.forall_mem_cons]
    decide +kernel
  · intro k base hopened
    simp only [turn, List.mem_append, List.mem_cons, List.mem_map] at hopened
    rw [List.nil_append, hwrites]
    simp at hopened
    rcases hopened with ⟨rfl, rfl⟩ | ⟨rfl, rfl⟩
    · decide
    · decide

/-- A store that was opened when there was no file yet. -/
def storeOf (k : Fin 2) : Store := ⟨.empty, some ⟨catalogPath, processOf k⟩⟩

/-- The commit of the first store, which makes a database. -/
def firstCommit : Except StoreError Catalog × Store × Environment Unit :=
  (storeOf 0).commitLog [.createDatabase World.warehouse] ⟨⟨.empty, []⟩, ⟨0, 0⟩, 0, ()⟩

/-- The commit of the second store after it, which changes nothing. -/
def secondCommit : Except StoreError Catalog × Store × Environment Unit :=
  (storeOf 1).commitLog [] firstCommit.2.2

/-- Both stores are opened before the first commit. Both commits succeed, and of what the first one
has made nothing is left in the file. -/
theorem exists_lost_update : ∃ (events : List (Event (Fin 2) Unit)) (last : Shared (Fin 2) Unit)
    (made found : Catalog), Run catalogPath processOf (closed ⟨.empty, []⟩) events last ∧
    (∀ k, ∃ store, last.stores k = some store ∧ store.writing = none) ∧
    .returned 0 [.createDatabase World.warehouse] (.ok made) ∈ events ∧
    made.databases.contains "warehouse" = true ∧
    .returned 1 [] (.ok found) ∈ events ∧
    Storage.read last.files catalogPath = .ok (some found) ∧
    found.databases.contains "warehouse" = false := by
  have hempty : Storage.read ⟨.empty, []⟩ catalogPath = .ok none := by decide +kernel
  have hmade : firstCommit.1 =
      .ok { counted 1 with databases := .ofList [("warehouse", World.warehouse)] } := by
    decide +kernel
  have hfound : secondCommit.1 = .ok (counted 1) ∧
      Storage.read secondCommit.2.2.files catalogPath = .ok (some (counted 1)) := by
    decide +kernel
  have hnil : Run catalogPath processOf (closed ⟨.empty, []⟩ : Shared (Fin 2) Unit) [] _ := .nil
  have hopened := (hnil.step (.start (k := 0) rfl hempty)).step (.start (k := 1) rfl hempty)
  have happly : (storeOf 0).committed.applyAll [.createDatabase World.warehouse] =
      .ok { Catalog.empty with databases := .ofList [("warehouse", World.warehouse)] } := by
    decide +kernel
  obtain ⟨_, _, hstage, hentered⟩ := hopened.exists_entered (k := 0)
    (show _ = some (OpenStore.mk (.ofStore (storeOf 0)) none) from rfl) () happly
  obtain ⟨first, hmore, hfirst⟩ := hentered.exists_commitLog (stores_set_self _) hstage rfl
    ⟨⟨.empty, []⟩, ⟨0, 0⟩, 0, ()⟩ rfl
  rw [← firstCommit.eq_def] at hmore hfirst
  obtain ⟨_, _, hstage, hentered⟩ := hfirst.exists_entered (k := 1)
    (show _ = some (OpenStore.mk (.ofStore (storeOf 1)) none) from rfl) ()
    (rfl : (storeOf 1).committed.applyAll [] = .ok .empty)
  obtain ⟨second, hrest, hsecond⟩ := hentered.exists_commitLog (stores_set_self _) hstage rfl
    firstCommit.2.2 rfl
  rw [← secondCommit.eq_def] at hrest hsecond
  rw [hmade] at hmore
  rw [hfound.1] at hrest
  generalize secondCommit = commit at hfound hsecond
  refine ⟨_, _, { counted 1 with databases := .ofList [("warehouse", World.warehouse)] },
    counted 1, hsecond, ?_, ?_, ?_, List.mem_append_right _ hrest, hfound.2, ?_⟩
  · intro k
    match k with
    | 0 => exact ⟨_, rfl, rfl⟩
    | 1 => exact ⟨_, rfl, rfl⟩
  · exact List.mem_append_left _ (List.mem_append_left _ (List.mem_append_right _ hmore))
  · decide +kernel
  · decide +kernel

end Shared

end MetricCatalog
