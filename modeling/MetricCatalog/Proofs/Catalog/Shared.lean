/-
# Stores on one file

Any number of stores are opened on the same path, each by a process of its own,
and each has its sessions. What they share is the file. A store reads it once,
when it is opened, and every commit writes it as a whole: from the catalog that
the store remembers, by single steps between which other stores do theirs.

So the file holds what the last renaming has put there, and the commits of
another store are in it only as far as the store that wrote it has seen them.
Nothing is lost as long as no other store writes between the opening of a store
and its commits; without that an update can get lost.
-/

import Mathlib.Data.List.Induction
import MetricCatalog.Proofs.Catalog.Serial
import MetricCatalog.Proofs.Catalog.Writing

namespace MetricCatalog

/-- A commit that is being written. -/
structure Writing (ι : Type) where
  session : ι
  log : List Mutation
  /-- The catalog on which the log has been replayed. -/
  catalog : Catalog
  /-- What is left to be done with the files. -/
  remaining : List FileStep

/-- A store that has been opened, with its sessions. -/
structure OpenStore (ι : Type) where
  world : World ι
  writing : Option (Writing ι)

/-- The files, and the stores that have been opened on them. -/
structure Shared (κ ι : Type) where
  files : FileTree
  stores : κ → Option (OpenStore ι)

theorem World.Step.store_eq {ι : Type} [DecidableEq ι] {world next : World ι}
    {event : World.Event ι} (hstep : World.Step world event next)
    (hquiet : ∀ i log result, event ≠ .settled i log result) : next.store = world.store := by
  rcases hstep.store_cases with ⟨i, log, catalog, rfl, -, -⟩ | ⟨-, hsame⟩
  · exact absurd rfl (hquiet i log _)
  · exact hsame

namespace Shared

variable {κ ι : Type}

/-- Something that happens to stores on one file. -/
inductive Event (κ ι : Type)
  /-- A store was opened with a catalog. -/
  | opened (k : κ) (catalog : Catalog)
  /-- Something happened in a store that has nothing to do with the file. -/
  | inside (k : κ) (event : World.Event ι)
  /-- A commit has replayed its log and goes on to write. -/
  | prepared (k : κ) (log : List Mutation) (catalog : Catalog)
  /-- A commit has done one step with the files. -/
  | performed (k : κ) (log : List Mutation) (catalog : Catalog) (step : FileStep)
  /-- A commit has returned. -/
  | returned (k : κ) (log : List Mutation) (result : Except StoreError Catalog)

/-- A commit whose catalog has been put at the path. -/
structure Write (κ : Type) where
  store : κ
  log : List Mutation
  catalog : Catalog

/-- The commit that an event has put at the path. -/
def Event.write? : Event κ ι → Option (Write κ)
  | performed k log catalog (.rename _ _) => some ⟨k, log, catalog⟩
  | _ => none

/-- The commits that were put at the path, in order. -/
def writesIn (events : List (Event κ ι)) : List (Write κ) := events.filterMap Event.write?

/-- No store has been opened yet. -/
def closed (files : FileTree) : Shared κ ι := ⟨files, fun _ => none⟩

/-- What a step with the files may leave behind when it fails: a text may be written in part. -/
def Leaves (step : FileStep) (files next : FileTree) : Prop :=
  next = files ∨ ∃ path text part now, step = .write path text ∧
    files.write path (.text part) now = .ok next

section

variable [DecidableEq κ] [DecidableEq ι]

/-- The stores after one of them has changed. -/
def set (shared : Shared κ ι) (k : κ) (store : OpenStore ι) : Shared κ ι :=
  { shared with stores := Function.update shared.stores k (some store) }

/-- A single step of the stores on a path. -/
inductive Step (path : Path) (process : κ → Uuid) (shared : Shared κ ι) :
    Event κ ι → Shared κ ι → Prop
  | start {k : κ} {found : Option Catalog} (hclosed : shared.stores k = none)
      (hread : Storage.read shared.files path = .ok found) :
      Step path process shared (.opened k (found.getD .empty))
        (shared.set k ⟨.ofStore ⟨found.getD .empty, some ⟨path, process k⟩⟩, none⟩)
  | inside {k : κ} {store : OpenStore ι} {event : World.Event ι} {next : World ι}
      (hstore : shared.stores k = some store) (hstep : World.Step store.world event next)
      (hquiet : ∀ i log result, event ≠ .settled i log result) :
      Step path process shared (.inside k event) (shared.set k { store with world := next })
  | conflict {k : κ} {store : OpenStore ι} {i : ι} {log : List Mutation} {error : CatalogError}
      (hstore : shared.stores k = some store) (hidle : store.writing = none)
      (hstage : store.world.stage i = .writing log)
      (hreplay : store.world.store.replay log = .error error) :
      Step path process shared (.returned k log (.error (.conflict error)))
        (shared.set k ⟨store.world.put i .over, none⟩)
  | prepare {k : κ} {store : OpenStore ι} {i : ι} {log : List Mutation} {catalog : Catalog}
      {storage : Storage} (hstore : shared.stores k = some store) (hidle : store.writing = none)
      (hstage : store.world.stage i = .writing log)
      (hreplay : store.world.store.replay log = .ok catalog)
      (hstorage : store.world.store.storage = some storage) :
      Step path process shared (.prepared k log catalog)
        (shared.set k { store with
          writing := some ⟨i, log, catalog, storage.writeSteps catalog⟩ })
  | perform {k : κ} {store : OpenStore ι} {writing : Writing ι} {step : FileStep}
      {rest : List FileStep} {now : Instant} {files : FileTree}
      (hstore : shared.stores k = some store) (hwriting : store.writing = some writing)
      (hnext : writing.remaining = step :: rest)
      (hfiles : step.perform now shared.files = .ok files) :
      Step path process shared (.performed k writing.log writing.catalog step)
        ({ shared with files := files }.set k { store with
          writing := some { writing with remaining := rest } })
  | fail {k : κ} {store : OpenStore ι} {writing : Writing ι} {step : FileStep}
      {rest : List FileStep} {files : FileTree} (hstore : shared.stores k = some store)
      (hwriting : store.writing = some writing) (hnext : writing.remaining = step :: rest)
      (hfiles : Leaves step shared.files files) (error : StorageError) :
      Step path process shared (.returned k writing.log (.error (.storage error)))
        ({ shared with files := files }.set k ⟨store.world.put writing.session .over, none⟩)
  | settle {k : κ} {store : OpenStore ι} {writing : Writing ι}
      (hstore : shared.stores k = some store) (hwriting : store.writing = some writing)
      (hdone : writing.remaining = []) :
      Step path process shared (.returned k writing.log (.ok writing.catalog))
        (shared.set k
          ⟨{ store.world with
            store := { store.world.store with committed := writing.catalog } }.put
              writing.session .over, none⟩)

/-- The runs from a first state: what happened, and the state it led to. -/
inductive Run (path : Path) (process : κ → Uuid) (first : Shared κ ι) :
    List (Event κ ι) → Shared κ ι → Prop
  | nil : Run path process first [] first
  | step {events : List (Event κ ι)} {shared next : Shared κ ι} {event : Event κ ι}
      (prior : Run path process first events shared) (hstep : Step path process shared event next) :
      Run path process first (events ++ [event]) next

end

/-! ## What the file holds -/

variable {path : Path} {process : κ → Uuid} {shared next : Shared κ ι}
  {events : List (Event κ ι)} {event : Event κ ι}

theorem writesIn_append (events : List (Event κ ι)) (event : Event κ ι) :
    writesIn (events ++ [event]) = writesIn events ++ event.write?.toList :=
  History.filterMap_concat ..

theorem writesIn_append_of_none (hwrite : event.write? = none) :
    writesIn (events ++ [event]) = writesIn events := by
  rw [writesIn_append, hwrite, Option.toList_none, List.append_nil]

theorem mem_writesIn_append {write : Write κ} (hwrite : write ∈ writesIn events) :
    write ∈ writesIn (events ++ [event]) := by
  rw [writesIn_append]
  exact List.mem_append_left _ hwrite

/-- A store agrees with what has happened and with the files. -/
structure Fits (path : Path) (process : κ → Uuid) (events : List (Event κ ι)) (files : FileTree)
    (k : κ) (store : OpenStore ι) : Prop where
  storage : store.world.store.storage = some ⟨path, process k⟩
  phase : ∀ writing ∈ store.writing,
    (Storage.mk path (process k)).Phase writing.catalog writing.remaining
  ready : ∀ writing ∈ store.writing,
    (Storage.mk path (process k)).Ready writing.catalog writing.remaining files
  replayed : ∀ writing ∈ store.writing,
    store.world.store.replay writing.log = .ok writing.catalog
  written : ∀ writing ∈ store.writing, writing.remaining = [] →
    ⟨k, writing.log, writing.catalog⟩ ∈ writesIn events

/-- The file holds the catalog of the last commit that was put there, and whatever commit has
returned without an error was put there. -/
structure Consistent (path : Path) (process : κ → Uuid) (events : List (Event κ ι))
    (shared : Shared κ ι) : Prop where
  file : ∀ write ∈ (writesIn events).getLast?,
    shared.files.read path = .ok (.text (Storage.encode write.catalog))
  stores : ∀ k store, shared.stores k = some store →
    Fits path process events shared.files k store
  returned : ∀ k log catalog, .returned k log (.ok catalog) ∈ events →
    ⟨k, log, catalog⟩ ∈ writesIn events

theorem Fits.mono {files later : FileTree} {k : κ} {store : OpenStore ι}
    (hfits : Fits path process events files k store)
    (hready : ∀ writing ∈ store.writing,
      (Storage.mk path (process k)).Ready writing.catalog writing.remaining later) :
    Fits path process (events ++ [event]) later k store where
  storage := hfits.storage
  phase := hfits.phase
  ready := hready
  replayed := hfits.replayed
  written writing hwriting hdone := mem_writesIn_append (hfits.written writing hwriting hdone)

/-- A store that writes nothing fits as soon as it knows its path. -/
theorem fits_of_idle {files : FileTree} {k : κ} {world : World ι}
    (hstorage : world.store.storage = some ⟨path, process k⟩) :
    Fits path process events files k ⟨world, none⟩ where
  storage := hstorage
  phase := by simp
  ready := by simp
  replayed := by simp
  written := by simp

/-- A store that has done one step with the files fits again. -/
theorem Fits.perform {files later : FileTree} {k : κ} {store : OpenStore ι} {writing : Writing ι}
    {step : FileStep} {rest : List FileStep} (hfits : Fits path process events files k store)
    (hwriting : store.writing = some writing) (hnext : writing.remaining = step :: rest)
    (hready : (Storage.mk path (process k)).Ready writing.catalog rest later)
    (hwritten : rest = [] → ⟨k, writing.log, writing.catalog⟩ ∈ writesIn (events ++ [event])) :
    Fits path process (events ++ [event]) later k
      { store with writing := some { writing with remaining := rest } } where
  storage := hfits.storage
  phase := by
    rintro _ ⟨⟩
    have hphase := hfits.phase writing hwriting
    rw [hnext] at hphase
    exact hphase.tail
  ready := by
    rintro _ ⟨⟩
    exact hready
  replayed := by
    rintro _ ⟨⟩
    exact hfits.replayed writing hwriting
  written := by
    rintro _ ⟨⟩
    exact hwritten

variable [DecidableEq κ]

theorem stores_set {j k : κ} {store other : OpenStore ι}
    (hother : (shared.set k store).stores j = some other) :
    (j = k ∧ other = store) ∨ (j ≠ k ∧ shared.stores j = some other) := by
  by_cases hsame : j = k
  · subst hsame
    simp only [set, Function.update_self] at hother
    exact Or.inl ⟨rfl, (Option.some.inj hother).symm⟩
  · simp only [set, Function.update_of_ne hsame] at hother
    exact Or.inr ⟨hsame, hother⟩

/-- A step changes one store and the files; the other stores have to find ready what they had
ready before. -/
theorem Consistent.set (hconsistent : Consistent path process events shared) {k : κ}
    {store : OpenStore ι} {files : FileTree}
    (hstore : Fits path process (events ++ [event]) files k store)
    (hothers : ∀ j ≠ k, ∀ other, shared.stores j = some other → ∀ writing ∈ other.writing,
      (Storage.mk path (process j)).Ready writing.catalog writing.remaining files)
    (hfile : ∀ write ∈ (writesIn (events ++ [event])).getLast?,
      files.read path = .ok (.text (Storage.encode write.catalog)))
    (hreturned : ∀ log catalog, event = .returned k log (.ok catalog) →
      ⟨k, log, catalog⟩ ∈ writesIn events)
    (hevent : ∀ j log result, event = .returned j log result → j = k) :
    Consistent path process (events ++ [event]) ({ shared with files := files }.set k store) where
  file := hfile
  stores := by
    intro j other hother
    rcases stores_set hother with ⟨rfl, rfl⟩ | ⟨hne, hother⟩
    · exact hstore
    · exact (hconsistent.stores j other hother).mono (hothers j hne other hother)
  returned := by
    intro j log catalog hmem
    apply mem_writesIn_append
    rcases List.mem_append.mp hmem with hbefore | hlast
    · exact hconsistent.returned j log catalog hbefore
    · have hsame := (List.mem_singleton.mp hlast).symm
      obtain rfl := hevent j log _ hsame
      exact hreturned log catalog hsame

theorem Consistent.set_same (hconsistent : Consistent path process events shared) {k : κ}
    {store : OpenStore ι} (hstore : Fits path process (events ++ [event]) shared.files k store)
    (hwrite : event.write? = none)
    (hreturned : ∀ log catalog, event = .returned k log (.ok catalog) →
      ⟨k, log, catalog⟩ ∈ writesIn events)
    (hevent : ∀ j log result, event = .returned j log result → j = k) :
    Consistent path process (events ++ [event]) (shared.set k store) := by
  refine hconsistent.set hstore ?_ ?_ hreturned hevent
  · intro j _ other hother
    exact (hconsistent.stores j other hother).ready
  · rw [writesIn_append_of_none hwrite]
    exact hconsistent.file

theorem Consistent.perform
    (hprocess : ∀ j k, j ≠ k → (process j).format ≠ (process k).format)
    (hconsistent : Consistent path process events shared) {k : κ} {store : OpenStore ι}
    {writing : Writing ι} {step : FileStep} {rest : List FileStep} {now : Instant}
    {files : FileTree} (hstore : shared.stores k = some store)
    (hwriting : store.writing = some writing) (hnext : writing.remaining = step :: rest)
    (hfiles : step.perform now shared.files = .ok files) :
    Consistent path process (events ++ [.performed k writing.log writing.catalog step])
      ({ shared with files := files }.set k { store with
        writing := some { writing with remaining := rest } }) := by
  have hfits := hconsistent.stores k store hstore
  have hphase := hfits.phase writing hwriting
  have hready := hfits.ready writing hwriting
  rw [hnext] at hphase hready
  have hothers : ∀ j ≠ k, ∀ other, shared.stores j = some other → ∀ later ∈ other.writing,
      (Storage.mk path (process j)).Ready later.catalog later.remaining files := by
    intro j hne other hother later hlater
    refine hphase.perform_other hready hfiles ?_ ?_ ?_
    · rfl
    · exact hprocess j k hne
    · exact (hconsistent.stores j other hother).ready later hlater
  have hlater := hphase.perform_ready hfiles
  rcases hphase.perform_path hfiles hready with ⟨hrest, hquiet, hkept⟩ | ⟨hrest, rfl, hput⟩
  · have hwrite :
        (Event.performed k writing.log writing.catalog step : Event κ ι).write? = none := by
      cases step with
      | makeDirectories | write => rfl
      | rename source target => exact absurd rfl (hquiet source target)
    refine hconsistent.set (hfits.perform hwriting hnext hlater (absurd · hrest)) hothers ?_
      (by simp) (by simp)
    intro write hlast
    rw [writesIn_append_of_none hwrite] at hlast
    exact hkept _ (hconsistent.file write hlast)
  · refine hconsistent.set (hfits.perform hwriting hnext hlater fun _ => ?_) hothers ?_ (by simp)
      (by simp)
    · rw [writesIn_append]
      exact List.mem_append_right _ (List.mem_singleton_self _)
    · intro write hlast
      rw [writesIn_append, Event.write?, Option.toList_some, List.getLast?_concat] at hlast
      cases hlast
      exact hput

omit [DecidableEq κ] in
/-- Whatever a step leaves behind when it fails, it is not at the path and not where another store
has something ready. -/
theorem Consistent.leaves
    (hprocess : ∀ j k, j ≠ k → (process j).format ≠ (process k).format)
    (hconsistent : Consistent path process events shared) {k : κ} {store : OpenStore ι}
    {writing : Writing ι} {step : FileStep} {rest : List FileStep} {files : FileTree}
    (hstore : shared.stores k = some store) (hwriting : store.writing = some writing)
    (hnext : writing.remaining = step :: rest) (hfiles : Leaves step shared.files files) :
    (∀ found, shared.files.read path = .ok found → files.read path = .ok found) ∧
    ∀ j ≠ k, ∀ other, shared.stores j = some other → ∀ later ∈ other.writing,
      (Storage.mk path (process j)).Ready later.catalog later.remaining files := by
  rcases hfiles with rfl | ⟨place, text, part, now, rfl, hwrite⟩
  · exact ⟨fun _ hread => hread, fun j _ other hother =>
      (hconsistent.stores j other hother).ready⟩
  · have hphase := (hconsistent.stores k store hstore).phase writing hwriting
    rw [hnext] at hphase
    rw [hphase.path_of_write] at hwrite
    constructor
    · intro found hread
      have hkept := Storage.read_path_write hwrite hread
      exact hkept
    · intro j hne other hother later hlater hremaining
      have hread := (hconsistent.stores j other hother).ready later hlater hremaining
      refine Storage.read_temporary_write ?_ ?_ hwrite hread
      · rfl
      · exact hprocess j k hne

variable [DecidableEq ι]

theorem Step.consistent
    (hprocess : ∀ j k, j ≠ k → (process j).format ≠ (process k).format)
    (hstep : Step path process shared event next)
    (hconsistent : Consistent path process events shared) :
    Consistent path process (events ++ [event]) next := by
  have hstill : ∀ {k store}, shared.stores k = some store →
      Fits path process (events ++ [event]) shared.files k store := fun hstore =>
    (hconsistent.stores _ _ hstore).mono (hconsistent.stores _ _ hstore).ready
  cases hstep with
  | start hclosed hread =>
      exact hconsistent.set_same (fits_of_idle rfl) rfl (by simp) (by simp)
  | @inside k store inner world hstore hstep hquiet =>
      have hfits := hstill hstore
      have hsame := hstep.store_eq hquiet
      refine hconsistent.set_same ?_ rfl (by simp) (by simp)
      exact ⟨hsame ▸ hfits.storage, hfits.phase, hfits.ready, hsame ▸ hfits.replayed,
        hfits.written⟩
  | @conflict k store i log error hstore hidle hstage hreplay =>
      have hfits := hstill hstore
      refine hconsistent.set_same (fits_of_idle hfits.storage) rfl (by simp) ?_
      rintro j other result ⟨⟩
      rfl
  | @prepare k store i log catalog storage hstore hidle hstage hreplay hstorage =>
      have hfits := hstill hstore
      obtain rfl : storage = ⟨path, process k⟩ :=
        Option.some.inj (hstorage.symm.trans hfits.storage)
      refine hconsistent.set_same ⟨hfits.storage, ?_, ?_, ?_, ?_⟩ rfl (by simp)
        (by simp)
      · rintro _ ⟨⟩
        exact Storage.phase_writeSteps _ catalog
      · rintro _ ⟨⟩ hsteps
        exact absurd hsteps (Storage.writeSteps_ne_rename _ catalog)
      · rintro _ ⟨⟩
        exact hreplay
      · rintro _ ⟨⟩ hdone
        exact absurd hdone (Storage.writeSteps_ne_nil _ catalog)
  | perform hstore hwriting hnext hfiles =>
      exact hconsistent.perform hprocess hstore hwriting hnext hfiles
  | @fail k store writing step rest files hstore hwriting hnext hfiles error =>
      have hfits := hstill hstore
      obtain ⟨hkept, hothers⟩ := hconsistent.leaves hprocess hstore hwriting hnext hfiles
      refine hconsistent.set (fits_of_idle hfits.storage) hothers ?_ (by simp) ?_
      · intro write hlast
        rw [writesIn_append_of_none rfl] at hlast
        exact hkept _ (hconsistent.file write hlast)
      · rintro j other result ⟨⟩
        rfl
  | @settle k store writing hstore hwriting hdone =>
      have hfits := hstill hstore
      refine hconsistent.set_same (fits_of_idle hfits.storage) rfl ?_ ?_
      · rintro log catalog ⟨⟩
        exact (hconsistent.stores k store hstore).written writing hwriting hdone
      · rintro j log result ⟨⟩
        rfl

theorem Run.consistent
    (hprocess : ∀ j k, j ≠ k → (process j).format ≠ (process k).format) {files : FileTree}
    (hrun : Run path process (closed files) events shared) :
    Consistent path process events shared := by
  induction hrun with
  | nil => exact ⟨by simp [writesIn], by simp [closed], by simp⟩
  | step _ hstep ih => exact hstep.consistent hprocess ih

/-! ## Commits in one go -/

omit [DecidableEq ι] in
theorem set_set (shared : Shared κ ι) (k : κ) (files : FileTree) (before after : OpenStore ι) :
    ({ shared.set k before with files := files }.set k after) =
      { shared with files := files }.set k after := by
  simp [set]

variable {first : Shared κ ι} {files : FileTree} {k : κ} {world : World ι} {i : ι}
  {log : List Mutation} {catalog : Catalog}

/-- By induction on the writes: a session may begin and make them with nothing in between. -/
theorem Run.exists_pushed {store : Store} (hrun : Run path process first events shared)
    (hstore : shared.stores k = some ⟨.ofStore store, none⟩) (i : ι) (log : List Mutation) :
    ∃ more stage, stage i = .active ⟨store.committed, log, []⟩ ∧ (World.mk store stage).IsFree ∧
      Run path process first (events ++ more) (shared.set k ⟨⟨store, stage⟩, none⟩) := by
  induction log using List.reverseRecOn with
  | nil =>
      have hfree := World.isFree_ofStore (ι := ι) store
      have hbegan := hrun.step (.inside hstore (.begin (i := i) hfree rfl) (by simp))
      exact ⟨_, _, World.stage_put_self _ i _, hfree.put i (by simp), hbegan⟩
  | append_singleton log mutation ih =>
      obtain ⟨more, stage, hstage, hfree, hrun⟩ := ih
      have hpushed := hrun.step
        (.inside (Function.update_self ..) (.push hstage mutation) (by simp))
      rw [set_set, List.append_assoc] at hpushed
      exact ⟨_, _, World.stage_put_self _ i _, hfree.put i (by simp), hpushed⟩

/-- After its writes it may have its turn. -/
theorem Run.exists_entered {store : Store} {view : Catalog}
    (hrun : Run path process first events shared)
    (hstore : shared.stores k = some ⟨.ofStore store, none⟩) (i : ι)
    (happly : store.committed.applyAll log = .ok view) :
    ∃ more stage, stage i = .writing log ∧
      Run path process first (events ++ more) (shared.set k ⟨⟨store, stage⟩, none⟩) := by
  obtain ⟨more, stage, hstage, hfree, hpushed⟩ := hrun.exists_pushed hstore i log
  have hflush : (Session.mk store.committed log []).flush = (.ok (), ⟨view, [], log⟩) := by
    rw [Session.flush, happly]
    rfl
  have hrequested := hpushed.step
    (.inside (Function.update_self ..) (.request hstage (by rw [hflush])) (by simp))
  have hentered := hrequested.step (.inside (Function.update_self ..)
    (.enter (hfree.put i (by simp)) (World.stage_put_self ..)) (by simp))
  rw [set_set, set_set, hflush, List.append_assoc, List.append_assoc] at hentered
  exact ⟨_, _, World.stage_put_self _ i _, hentered⟩

/-- What a commit answers after its steps with the files. -/
def answerOf (catalog : Catalog) (outcome : Except (Path × OsError) Unit) :
    Except StoreError Catalog :=
  match outcome with
  | .ok () => .ok catalog
  | .error error => .error (.storage (.inaccessible error.1 error.2))

/-- By induction on what is left to be done: the steps with the files may follow each other, up to
the first that fails. -/
theorem Run.exists_returned {remaining : List FileStep} {outcome : Except (Path × OsError) Unit}
    {now : Instant} (hrun : Run path process first events shared)
    (hstore : shared.stores k = some ⟨world, some ⟨i, log, catalog, remaining⟩⟩)
    (hall : FileStep.performAll now shared.files remaining = (outcome, files)) :
    ∃ done, (outcome = .ok () → done = remaining) ∧
      Run path process first
        (events ++ (done.map (.performed k log catalog) ++
          [.returned k log (answerOf catalog outcome)]))
        ({ shared with files := files }.set k
          ⟨{ world with store := { world.store with
            committed := ((answerOf catalog outcome).toOption.getD world.store.committed) } }.put i
              .over, none⟩) := by
  induction remaining generalizing events shared with
  | nil =>
      cases hall
      exact ⟨[], fun _ => rfl, hrun.step (.settle hstore rfl rfl)⟩
  | cons step rest ih =>
      obtain ⟨error, -, rfl, rfl⟩ | ⟨tree, hperform, hrest⟩ := FileStep.performAll_cons hall
      · exact ⟨[], by simp, hrun.step (.fail hstore rfl rfl (Or.inl rfl) _)⟩
      · have hperformed := hrun.step (.perform hstore rfl rfl hperform)
        obtain ⟨done, hdone, hend⟩ := ih hperformed (Function.update_self ..) hrest
        rw [set_set, List.append_assoc] at hend
        exact ⟨step :: done, fun hok => by rw [hdone hok], hend⟩

/-- The steps of a commit, with nothing in between, do what `Store.commitLog` does. -/
theorem Run.exists_commitLog {σ : Type} (hrun : Run path process first events shared)
    {store : Store} {stage : ι → Stage} {storage : Storage}
    (hstore : shared.stores k = some ⟨⟨store, stage⟩, none⟩) (hstage : stage i = .writing log)
    (hstorage : store.storage = some storage)
    (environment : Environment σ) (hfiles : environment.files = shared.files) :
    ∃ more, .returned k log (store.commitLog log environment).1 ∈ more ∧
      Run path process first (events ++ more)
        ({ shared with files := (store.commitLog log environment).2.2.files }.set k
          ⟨World.put ⟨(store.commitLog log environment).2.1, stage⟩ i .over, none⟩) := by
  unfold Store.commitLog
  cases hreplay : store.replay log with
  | error error =>
      refine ⟨_, List.mem_singleton_self _, ?_⟩
      simp only [hfiles]
      exact hrun.step (.conflict hstore rfl hstage hreplay)
  | ok catalog =>
      have hprepared := hrun.step (.prepare hstore rfl hstage hreplay hstorage)
      simp only [hstorage, hfiles, Storage.write]
      generalize hall : FileStep.performAll environment.now shared.files
        (storage.writeSteps catalog) = performed
      obtain ⟨outcome, files⟩ := performed
      obtain ⟨done, -, hend⟩ := hprepared.exists_returned (Function.update_self ..) hall
      rw [set_set, List.append_assoc] at hend
      refine ⟨.prepared k log catalog :: (done.map (.performed k log catalog) ++
        [.returned k log (answerOf catalog outcome)]), ?_, ?_⟩
      · cases outcome with
        | ok | error => simp [answerOf, Except.mapError]
      · rw [← hstorage]
        cases outcome with
        | ok => exact hend
        | error error => exact hend

end Shared

end MetricCatalog
