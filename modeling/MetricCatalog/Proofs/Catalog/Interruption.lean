/-
# Commits that are interrupted

A process keeps a catalog at a path. A commit makes the directories above it,
writes the catalog beside it and renames what it has written. Each of these
steps can fail, and the process can stop at any time. What is half done then
stays, be it some of the directories or some of the text.

None of this can be seen at the path. It shows the catalog before the commit or
the one after it, from the renaming on, and when the commit returns it shows
what the process holds in memory.
-/

import MetricCatalog.Proofs.Catalog.Serial
import MetricCatalog.Proofs.Catalog.Writing
import MetricCatalog.Proofs.Files.Missing

namespace MetricCatalog

/-- What a step with the files can have done before it is done. A renaming is done at once. -/
inductive FileStep.Partly (files : FileTree) : FileStep → FileTree → Prop
  | directories {path above : Path} {now : Instant} {next : FileTree}
      (habove : above.IsAbove path) (hmake : files.makeDirectories above now = .ok next) :
      Partly files (.makeDirectories path) next
  | write {path : Path} {text : String} {part : Contents} {now : Instant} {next : FileTree}
      (hwrite : files.write path part now = .ok next) :
      Partly files (.write path text) next

/-- Where a process stands that keeps a catalog. -/
inductive Keeping
  /-- No commit is under way. -/
  | idle (store : Store)
  /-- A commit is being written: its catalog, and what is left to be done with the files. -/
  | writing (store : Store) (catalog : Catalog) (remaining : List FileStep)
  /-- The process has stopped, in a commit if there is a catalog. -/
  | stopped (unfinished : Option Catalog)

/-- The catalog of a commit that has not returned. -/
def Keeping.unfinished? : Keeping → Option Catalog
  | idle _ => none
  | writing _ catalog _ => some catalog
  | stopped unfinished => unfinished

/-- A process that keeps a catalog, and the files. -/
structure Keeper where
  files : FileTree
  keeping : Keeping

namespace Keeper

/-- Something that happens to a catalog that is kept. -/
inductive Event
  /-- A store was opened with what was found. -/
  | opened (found : Option Catalog)
  /-- A commit has replayed its log and goes on to write. -/
  | prepared (catalog : Catalog)
  /-- A step with the files has been done in part. -/
  | touched (step : FileStep)
  /-- A step with the files has been done. -/
  | performed (step : FileStep)
  /-- A commit has returned. -/
  | returned (result : Except StoreError Catalog)
  /-- The process has stopped. -/
  | stopped

/-- The store that is opened at a path. -/
def openedStore (path : Path) (process : Uuid) (found : Option Catalog) : Store :=
  ⟨found.getD .empty, some ⟨path, process⟩⟩

/-- Opening a path takes what is read from it. -/
theorem openAt_eq {σ : Type} {path : Path} {environment : Environment σ} {found : Option Catalog}
    (hread : Storage.read environment.files path = .ok found) :
    Store.openAt path environment =
      (.ok (openedStore path environment.newId.1 found), environment.newId.2) := by
  have hfiles : environment.newId.2.files = environment.files := rfl
  simp only [Store.openAt, hfiles, hread]
  rfl

/-- A single step of a process that keeps a catalog at a path, or of the next one after it. -/
inductive Step (path : Path) (keeper : Keeper) : Event → Keeper → Prop
  | open {unfinished found : Option Catalog} (hstopped : keeper.keeping = .stopped unfinished)
      (hread : Storage.read keeper.files path = .ok found) (process : Uuid) :
      Step path keeper (.opened found)
        { keeper with keeping := .idle (openedStore path process found) }
  | refuse {store : Store} {log : List Mutation} {error : CatalogError}
      (hidle : keeper.keeping = .idle store) (hreplay : store.replay log = .error error) :
      Step path keeper (.returned (.error (.conflict error))) keeper
  | prepare {store : Store} {storage : Storage} {log : List Mutation} {catalog : Catalog}
      (hidle : keeper.keeping = .idle store) (hstorage : store.storage = some storage)
      (hreplay : store.replay log = .ok catalog) :
      Step path keeper (.prepared catalog)
        { keeper with keeping := .writing store catalog (storage.writeSteps catalog) }
  | touch {store : Store} {catalog : Catalog} {step : FileStep} {rest : List FileStep}
      {files : FileTree} (hwriting : keeper.keeping = .writing store catalog (step :: rest))
      (hpartly : step.Partly keeper.files files) :
      Step path keeper (.touched step) { keeper with files := files }
  | perform {store : Store} {catalog : Catalog} {step : FileStep} {rest : List FileStep}
      {now : Instant} {files : FileTree}
      (hwriting : keeper.keeping = .writing store catalog (step :: rest))
      (hfiles : step.perform now keeper.files = .ok files) :
      Step path keeper (.performed step) ⟨files, .writing store catalog rest⟩
  | fail {store : Store} {catalog : Catalog} {step : FileStep} {rest : List FileStep}
      (hwriting : keeper.keeping = .writing store catalog (step :: rest)) (error : StorageError) :
      Step path keeper (.returned (.error (.storage error))) { keeper with keeping := .idle store }
  | settle {store : Store} {catalog : Catalog}
      (hwriting : keeper.keeping = .writing store catalog []) :
      Step path keeper (.returned (.ok catalog))
        { keeper with keeping := .idle { store with committed := catalog } }
  | stop : Step path keeper .stopped
      { keeper with keeping := .stopped keeper.keeping.unfinished? }

/-- The runs from a first state: what happened, and the state it led to. -/
inductive Run (path : Path) (first : Keeper) : List Event → Keeper → Prop
  | nil : Run path first [] first
  | step {events : List Event} {keeper next : Keeper} {event : Event}
      (prior : Run path first events keeper) (hstep : Step path keeper event next) :
      Run path first (events ++ [event]) next

/-- The catalog that counts after an event: what was found, or what was committed since. -/
def keptAfter (kept : Option Catalog) : Event → Option Catalog
  | .opened found => found
  | .returned (.ok catalog) => some catalog
  | _ => kept

/-- The catalog that counts, if there was one at first or a commit has returned without an error. -/
def keptIn (found : Option Catalog) (events : List Event) : Option Catalog :=
  events.foldl keptAfter found

/-- What commits have prepared reads back as itself. -/
def Readable (events : List Event) : Prop :=
  ∀ catalog, .prepared catalog ∈ events →
    Storage.decode (.text (Storage.encode catalog)) = .ok catalog

/-! ## What the path shows -/

/-- What is found at a path, and goes on to be found there. -/
def Shows (path : Path) (files : FileTree) : Option Catalog → Prop
  | none => path.IsPlain ∧ files.Lacks path
  | some catalog =>
      ∃ contents, files.read path = .ok contents ∧ Storage.decode contents = .ok catalog

variable {path : Path} {files next : FileTree} {kept : Option Catalog} {catalog : Catalog}

theorem Shows.read_eq (hshows : Shows path files kept) :
    Storage.read files path = .ok kept := by
  cases kept with
  | none =>
      obtain ⟨hplain, hlacks⟩ := hshows
      rw [Storage.read, hlacks.read_eq hplain]
  | some catalog =>
      obtain ⟨contents, hread, hdecode⟩ := hshows
      rw [Storage.read, hread]
      simp only [hdecode]
      rfl

theorem Shows.of_read {found : Option Catalog} (hshows : Shows path files kept)
    (hread : Storage.read files path = .ok found) : Shows path files found := by
  obtain rfl := Except.ok.inj (hread.symm.trans hshows.read_eq)
  exact hshows

/-- What is read from a path is what it shows, and what is not there stays away from a plain path in
files in which everything has its directory. -/
theorem shows_of_read (hread : Storage.read files path = .ok kept)
    (hnew : kept = none → files.IsRooted ∧ path.IsPlain) : Shows path files kept := by
  unfold Storage.read at hread
  cases hfound : files.read path with
  | ok contents =>
      simp only [hfound] at hread
      cases hdecode : Storage.decode contents with
      | error error =>
          rw [hdecode] at hread
          cases hread
      | ok catalog =>
          rw [hdecode] at hread
          cases hread
          exact ⟨contents, hfound, hdecode⟩
  | error error =>
      simp only [hfound] at hread
      cases error with
      | notFound =>
          cases hread
          obtain ⟨hrooted, hplain⟩ := hnew rfl
          exact ⟨hplain, hrooted.lacks hplain hfound⟩
      | alreadyExists | notDirectory | isDirectory | nameTooLong | notText | zeroInName =>
          cases hread

theorem Shows.makeDirectories (hshows : Shows path files kept) {parent above : Path}
    {now : Instant} (hparent : path.parent? = some parent) (habove : above.IsAbove parent)
    (hmake : files.makeDirectories above now = .ok next) : Shows path next kept := by
  cases kept with
  | none =>
      obtain ⟨hplain, hlacks⟩ := hshows
      exact ⟨hplain, hlacks.makeDirectories hplain.down hparent habove hmake⟩
  | some catalog =>
      obtain ⟨contents, hread, hdecode⟩ := hshows
      exact ⟨contents, (FileTree.makeDirectories_extends hmake).read hread, hdecode⟩

theorem Shows.writeTemporary {own : Storage} {contents : Contents} {now : Instant}
    (hshows : Shows own.path files kept)
    (hwrite : files.write own.temporaryPath contents now = .ok next) :
    Shows own.path next kept := by
  cases kept with
  | none =>
      obtain ⟨hplain, hlacks⟩ := hshows
      refine ⟨hplain, ?_⟩
      rcases hlacks with hempty | hclear
      · exact Or.inl hempty
      · obtain ⟨name, hname⟩ := hclear.exists_fileName hplain.down
        exact Or.inr (hclear.write hname
          (Path.parts_withFileName hname own.isName_temporaryName)
          (Storage.temporaryName_ne_fileName hname) hwrite)
  | some catalog =>
      obtain ⟨found, hread, hdecode⟩ := hshows
      exact ⟨found, Storage.read_path_write hwrite hread, hdecode⟩

/-! ## What a commit does -/

/-- The directories that a commit makes are those above the path. -/
theorem parent?_of_writeSteps {own : Storage} {parent : Path} {rest : List FileStep}
    (hsteps : own.writeSteps catalog = .makeDirectories parent :: rest) :
    own.path.parent? = some parent := by
  unfold Storage.writeSteps at hsteps
  split at hsteps
  · rename_i found hparent
    split at hsteps
    · cases hsteps
    · cases hsteps
      exact hparent
  · cases hsteps

/-- A commit that is being written agrees with the files. -/
structure Commits (path : Path) (kept : Option Catalog) (files : FileTree) (own : Storage)
    (catalog : Catalog) (remaining : List FileStep) : Prop where
  place : own.path = path
  phase : own.Phase catalog remaining
  above : ∀ parent rest, remaining = .makeDirectories parent :: rest → path.parent? = some parent
  ready : own.Ready catalog remaining files
  readable : Storage.decode (.text (Storage.encode catalog)) = .ok catalog
  shows : Shows path files (if remaining = [] then some catalog else kept)

/-- A commit that has yet to begin agrees with the files as they are. -/
theorem commits_writeSteps {own : Storage} (hplace : own.path = path)
    (hreadable : Storage.decode (.text (Storage.encode catalog)) = .ok catalog)
    (hshows : Shows path files kept) :
    Commits path kept files own catalog (own.writeSteps catalog) where
  place := hplace
  phase := own.phase_writeSteps catalog
  above := fun _ _ hsteps => hplace ▸ parent?_of_writeSteps hsteps
  ready := fun hsteps => absurd hsteps (own.writeSteps_ne_rename catalog)
  readable := hreadable
  shows := by rwa [if_neg (own.writeSteps_ne_nil catalog)]

theorem Commits.shows_cases {own : Storage} {remaining : List FileStep}
    (hcommits : Commits path kept files own catalog remaining) :
    Shows path files kept ∨ Shows path files (some catalog) := by
  have hshows := hcommits.shows
  split at hshows
  · exact Or.inr hshows
  · exact Or.inl hshows

/-- What is half done cannot be seen at the path. -/
theorem Commits.partly {own : Storage} {step : FileStep} {rest : List FileStep}
    (hcommits : Commits path kept files own catalog (step :: rest))
    (hpartly : step.Partly files next) :
    Commits path kept next own catalog (step :: rest) := by
  obtain ⟨rfl, hphase, habove, hready, hreadable, hshows⟩ := hcommits
  cases hpartly with
  | directories hover hmake =>
      refine ⟨rfl, hphase, habove, ?_, hreadable, ?_⟩
      · intro hrest
        cases hrest
      · exact hshows.makeDirectories (habove _ _ rfl) hover hmake
  | write hwrite =>
      rw [hphase.path_of_write] at hwrite
      refine ⟨rfl, hphase, habove, ?_, hreadable, ?_⟩
      · intro hrest
        cases hrest
      · exact hshows.writeTemporary hwrite

/-- The last step puts the catalog in place, and the steps before it leave what was there. -/
theorem Commits.perform {own : Storage} {step : FileStep} {rest : List FileStep} {now : Instant}
    (hcommits : Commits path kept files own catalog (step :: rest))
    (hperform : step.perform now files = .ok next) :
    Commits path kept next own catalog rest := by
  obtain ⟨rfl, hphase, habove, hready, hreadable, hshows⟩ := hcommits
  refine ⟨rfl, hphase.tail, ?_, hphase.perform_ready hperform, hreadable, ?_⟩
  · cases hphase with
    | directories | write | rename => simp
  · cases hphase with
    | directories parent =>
        rw [if_neg (by simp)] at hshows ⊢
        exact hshows.makeDirectories (habove _ _ rfl) (.self parent) hperform
    | write =>
        rw [if_neg (by simp)] at hshows ⊢
        exact hshows.writeTemporary hperform
    | rename =>
        rw [if_pos rfl]
        exact ⟨_, FileTree.read_rename (hready rfl) hperform, hreadable⟩

/-! ## Runs -/

/-- The files agree with what the process holds, and with the catalog that counts. -/
def Sound (path : Path) (kept : Option Catalog) (keeper : Keeper) : Prop :=
  match keeper.keeping with
  | .idle store =>
      (∃ own, store.storage = some own ∧ own.path = path) ∧
        store.committed = kept.getD .empty ∧ Shows path keeper.files kept
  | .writing store catalog remaining =>
      ∃ own, store.storage = some own ∧ store.committed = kept.getD .empty ∧
        Commits path kept keeper.files own catalog remaining
  | .stopped unfinished =>
      Shows path keeper.files kept ∨
        ∃ catalog ∈ unfinished, Shows path keeper.files (some catalog)

/-- Wherever the process stands, the path shows the catalog that counts or the one of a commit that
has not returned. -/
theorem Sound.shows_cases {keeper : Keeper} (hsound : Sound path kept keeper) :
    Shows path keeper.files kept ∨
      ∃ catalog ∈ keeper.keeping.unfinished?, Shows path keeper.files (some catalog) := by
  unfold Sound at hsound
  cases hkeeping : keeper.keeping with
  | idle store =>
      rw [hkeeping] at hsound
      exact Or.inl hsound.2.2
  | writing store catalog remaining =>
      rw [hkeeping] at hsound
      obtain ⟨own, -, -, hcommits⟩ := hsound
      exact hcommits.shows_cases.imp_right fun hshows => ⟨catalog, rfl, hshows⟩
  | stopped unfinished =>
      rw [hkeeping] at hsound
      exact hsound

theorem Step.sound {keeper after : Keeper} {event : Event} (hstep : Step path keeper event after)
    (hsound : Sound path kept keeper)
    (hreadable : ∀ catalog, event = .prepared catalog →
      Storage.decode (.text (Storage.encode catalog)) = .ok catalog) :
    Sound path (keptAfter kept event) after := by
  cases hstep with
  | «open» hstopped hread process =>
      refine ⟨⟨_, rfl, rfl⟩, rfl, ?_⟩
      obtain hshows | ⟨catalog, -, hshows⟩ := hsound.shows_cases
      · exact hshows.of_read hread
      · exact hshows.of_read hread
  | refuse hidle hreplay => exact hsound
  | @prepare store storage log catalog hidle hstorage hreplay =>
      rw [Sound, hidle] at hsound
      obtain ⟨⟨own, hown, hplace⟩, hcommitted, hshows⟩ := hsound
      obtain rfl := Option.some.inj (hstorage.symm.trans hown)
      exact ⟨storage, hown, hcommitted, commits_writeSteps hplace (hreadable catalog rfl) hshows⟩
  | touch hwriting hpartly =>
      rw [Sound, hwriting] at hsound
      obtain ⟨own, hown, hcommitted, hcommits⟩ := hsound
      rw [Sound, hwriting]
      exact ⟨own, hown, hcommitted, hcommits.partly hpartly⟩
  | perform hwriting hfiles =>
      rw [Sound, hwriting] at hsound
      obtain ⟨own, hown, hcommitted, hcommits⟩ := hsound
      exact ⟨own, hown, hcommitted, hcommits.perform hfiles⟩
  | fail hwriting error =>
      rw [Sound, hwriting] at hsound
      obtain ⟨own, hown, hcommitted, hcommits⟩ := hsound
      refine ⟨⟨own, hown, hcommits.place⟩, hcommitted, ?_⟩
      have hshows := hcommits.shows
      rwa [if_neg (by simp)] at hshows
  | settle hwriting =>
      rw [Sound, hwriting] at hsound
      obtain ⟨own, hown, -, hcommits⟩ := hsound
      exact ⟨⟨own, hown, hcommits.place⟩, rfl, hcommits.shows⟩
  | stop => exact hsound.shows_cases

theorem keptIn_append (found : Option Catalog) (events : List Event) (event : Event) :
    keptIn found (events ++ [event]) = keptAfter (keptIn found events) event :=
  List.foldl_concat ..

/-- By induction on the run. -/
theorem Run.sound {first keeper : Keeper} {found : Option Catalog} {events : List Event}
    (hrun : Run path first events keeper) (hsound : Sound path found first)
    (hreadable : Readable events) : Sound path (keptIn found events) keeper := by
  induction hrun with
  | nil => exact hsound
  | @step events keeper next event _ hstep ih =>
      rw [keptIn_append]
      apply hstep.sound
      · exact ih fun catalog hprepared => hreadable catalog (List.mem_append_left _ hprepared)
      · rintro catalog rfl
        exact hreadable catalog List.mem_concat_self

theorem Sound.read_idle {keeper : Keeper} {store : Store} (hsound : Sound path kept keeper)
    (hidle : keeper.keeping = .idle store) :
    Storage.read keeper.files path = .ok kept ∧ store.committed = kept.getD .empty := by
  rw [Sound, hidle] at hsound
  exact ⟨hsound.2.2.read_eq, hsound.2.1⟩

theorem Sound.read_cases {keeper : Keeper} (hsound : Sound path kept keeper) :
    Storage.read keeper.files path = .ok kept ∨
      ∃ catalog ∈ keeper.keeping.unfinished?,
        Storage.read keeper.files path = .ok (some catalog) := by
  obtain hshows | ⟨catalog, hmem, hshows⟩ := hsound.shows_cases
  · exact Or.inl hshows.read_eq
  · exact Or.inr ⟨catalog, hmem, hshows.read_eq⟩

theorem Step.idle_of_returned {keeper after : Keeper} {result : Except StoreError Catalog}
    (hstep : Step path keeper (.returned result) after) :
    ∃ store, after.keeping = .idle store := by
  cases hstep with
  | refuse hidle => exact ⟨_, hidle⟩
  | fail | settle => exact ⟨_, rfl⟩

/-- For a store that was opened at a path, and all that may happen to its commits: what is read from
the path is the catalog that counts or the one of a commit that has not returned. With no commit
under way it is the one that counts, and the one in memory; and a commit that returns leaves its
own catalog in both places, or the one before it. If there is no catalog at first, the path has to
be plain. -/
theorem run_atomic {process : Uuid} {found : Option Catalog} {events : List Event}
    {keeper : Keeper} (hread : Storage.read files path = .ok found)
    (hnew : found = none → files.IsRooted ∧ path.IsPlain)
    (hrun : Run path ⟨files, .idle (openedStore path process found)⟩ events keeper)
    (hreadable : Readable events) :
    (Storage.read keeper.files path = .ok (keptIn found events) ∨
      ∃ catalog ∈ keeper.keeping.unfinished?,
        Storage.read keeper.files path = .ok (some catalog)) ∧
    (∀ store, keeper.keeping = .idle store →
      Storage.read keeper.files path = .ok (keptIn found events) ∧
        store.committed = (keptIn found events).getD .empty) ∧
    ∀ result after, Step path keeper (.returned result) after →
      ∃ store, after.keeping = .idle store ∧
        match result with
        | .ok catalog =>
            Storage.read after.files path = .ok (some catalog) ∧ store.committed = catalog
        | .error _ =>
            Storage.read after.files path = .ok (keptIn found events) ∧
              store.committed = (keptIn found events).getD .empty := by
  have hfirst : Sound path found ⟨files, .idle (openedStore path process found)⟩ :=
    ⟨⟨_, rfl, rfl⟩, rfl, shows_of_read hread hnew⟩
  have hsound := hrun.sound hfirst hreadable
  refine ⟨hsound.read_cases, fun store hidle => hsound.read_idle hidle, ?_⟩
  intro result after hstep
  obtain ⟨store, hidle⟩ := hstep.idle_of_returned
  have hafter := (hstep.sound hsound (by simp)).read_idle hidle
  refine ⟨store, hidle, ?_⟩
  cases result with
  | ok catalog => exact hafter
  | error error => exact hafter

/-! ## Commits in one go -/

variable {first : Keeper} {events : List Event} {store : Store} {now : Instant}

/-- By induction on the steps: those that can be done may follow each other. -/
theorem Run.performAll {done rest : List FileStep}
    (hrun : Run path first events ⟨files, .writing store catalog (done ++ rest)⟩)
    (hall : FileStep.performAll now files done = (.ok (), next)) :
    Run path first (events ++ done.map .performed) ⟨next, .writing store catalog rest⟩ := by
  induction done generalizing events files with
  | nil =>
      cases hall
      rwa [List.map_nil, List.append_nil]
  | cons step done ih =>
      obtain ⟨error, -, hfailed, -⟩ | ⟨middle, hperform, hrest⟩ := FileStep.performAll_cons hall
      · cases hfailed
      · have hend := ih (hrun.step (.perform rfl hperform)) hrest
        rwa [List.append_assoc] at hend

/-- By induction on the steps: before the first that cannot be done, all can. -/
theorem exists_of_performAll_error {remaining : List FileStep} {error : Path × OsError}
    (hall : FileStep.performAll now files remaining = (.error error, next)) :
    ∃ done step rest, remaining = done ++ step :: rest ∧
      FileStep.performAll now files done = (.ok (), next) := by
  induction remaining generalizing files with
  | nil => cases hall
  | cons step rest ih =>
      obtain ⟨found, -, -, rfl⟩ | ⟨middle, hperform, hrest⟩ := FileStep.performAll_cons hall
      · exact ⟨[], step, rest, rfl, rfl⟩
      · obtain ⟨done, failed, later, rfl, hdone⟩ := ih hrest
        refine ⟨step :: done, failed, later, rfl, ?_⟩
        rw [FileStep.performAll, hperform]
        exact hdone

/-- The steps of a commit, with nothing in between, do what `Store.commitLog` does. -/
theorem Run.exists_commitLog {σ : Type} {storage : Storage} {environment : Environment σ}
    (hrun : Run path first events ⟨environment.files, .idle store⟩)
    (hstorage : store.storage = some storage) (log : List Mutation) :
    ∃ more, Run path first
      (events ++ more ++ [.returned (store.commitLog log environment).1])
      ⟨(store.commitLog log environment).2.2.files,
        .idle (store.commitLog log environment).2.1⟩ := by
  rw [Store.commitLog]
  cases hreplay : store.replay log with
  | error error =>
      refine ⟨[], ?_⟩
      rw [List.append_nil]
      exact hrun.step (.refuse rfl hreplay)
  | ok catalog =>
      have hprepared := hrun.step (.prepare rfl hstorage hreplay)
      simp only [hstorage, Storage.write]
      cases hall : FileStep.performAll environment.now environment.files
          (storage.writeSteps catalog) with
      | mk outcome files =>
          cases outcome with
          | ok done =>
              cases done
              rw [← List.append_nil (storage.writeSteps catalog)] at hprepared
              have hdone := (hprepared.performAll hall).step (.settle rfl)
              rw [List.append_assoc events, hstorage] at hdone
              exact ⟨_, hdone⟩
          | error error =>
              obtain ⟨done, step, rest, hsteps, hdone⟩ := exists_of_performAll_error hall
              simp only [hsteps] at hprepared
              have hfailed := (hprepared.performAll hdone).step
                (.fail rfl (.inaccessible error.1 error.2))
              rw [List.append_assoc events] at hfailed
              exact ⟨_, hfailed⟩

/-! ## A commit that is cut off -/

/-- The place of a catalog whose directory is missing at first. -/
def nestedStorage : Storage := ⟨⟨"data/catalog.json"⟩, .ofNat 1⟩

/-- An empty catalog that has been committed a number of times. -/
def emptyCatalog (version : UInt64) : Catalog := Catalog.empty.withVersion version

/-- A process that has found no catalog there, and no other files. -/
def nestedKeeper : Keeper :=
  ⟨⟨.empty, []⟩, .idle (openedStore nestedStorage.path nestedStorage.process none)⟩

/-- The steps of its second commit up to the one in which the process stops, and the one behind. -/
def secondSteps : FileStep × FileStep × FileStep :=
  (.makeDirectories ⟨"data"⟩,
    .write nestedStorage.temporaryPath (Storage.encode (emptyCatalog 2)),
    .rename nestedStorage.temporaryPath nestedStorage.path)

/-- A first commit succeeds, and the process stops in the midst of the second one, when it has
written a part of the text. -/
def cutOff : List Event :=
  [.prepared (emptyCatalog 1)] ++ (nestedStorage.writeSteps (emptyCatalog 1)).map .performed ++
    [.returned (.ok (emptyCatalog 1))] ++ [.prepared (emptyCatalog 2)] ++
    [.performed secondSteps.1] ++ [.touched secondSteps.2.1] ++ [.stopped]

/-- The files after the first commit. -/
def writtenFiles : FileTree :=
  (FileStep.performAll ⟨0, 0⟩ ⟨.empty, []⟩ (nestedStorage.writeSteps (emptyCatalog 1))).2

theorem exists_run_cutOff :
    ∃ keeper, Run nestedStorage.path nestedKeeper cutOff keeper ∧
      keeper.keeping.unfinished? = some (emptyCatalog 2) := by
  have hfirst : (openedStore nestedStorage.path nestedStorage.process none).replay [] =
      .ok (emptyCatalog 1) := by decide +kernel
  have hwritten : FileStep.performAll ⟨0, 0⟩ ⟨.empty, []⟩
      (nestedStorage.writeSteps (emptyCatalog 1)) = (.ok (), writtenFiles) := by decide +kernel
  have hsecond : (⟨emptyCatalog 1, some nestedStorage⟩ : Store).replay [] =
      .ok (emptyCatalog 2) := by decide +kernel
  have hsteps : nestedStorage.writeSteps (emptyCatalog 2) =
      [secondSteps.1, secondSteps.2.1, secondSteps.2.2] := by decide +kernel
  have hmade : secondSteps.1.perform ⟨0, 0⟩ writtenFiles = .ok writtenFiles := by decide +kernel
  have hpart : writtenFiles.write nestedStorage.temporaryPath (.text "half") ⟨0, 0⟩ =
      .ok (((writtenFiles.write nestedStorage.temporaryPath (.text "half") ⟨0, 0⟩).toOption).getD
        writtenFiles) := by decide +kernel
  have hnil : Run nestedStorage.path nestedKeeper [] nestedKeeper := .nil
  have hprepared := hnil.step (.prepare rfl rfl hfirst)
  rw [← List.append_nil (Storage.writeSteps _ _)] at hprepared
  have hcommitted := (hprepared.performAll hwritten).step (.settle rfl)
  have hagain := hcommitted.step (.prepare rfl rfl hsecond)
  rw [show Storage.writeSteps ⟨nestedStorage.path, nestedStorage.process⟩ (emptyCatalog 2) = _
    from hsteps] at hagain
  have htouched := (hagain.step (.perform rfl hmade)).step (.touch rfl (.write hpart))
  exact ⟨_, htouched.step .stop, rfl⟩

theorem isRooted_empty : (⟨.empty, []⟩ : FileTree).IsRooted where
  directory := by
    intro names name entry hentry
    rw [FileTree.entry?_eq_find? _ (by simp)] at hentry
    cases hentry
  workingDirectory := FileTree.hasDirectory_nil _

theorem run_atomic_cutOff :
    ∃ keeper, Storage.read ⟨.empty, []⟩ nestedStorage.path = .ok none ∧
      Run nestedStorage.path nestedKeeper cutOff keeper ∧ Readable cutOff ∧
      (Storage.read keeper.files nestedStorage.path = .ok (some (emptyCatalog 1)) ∨
        Storage.read keeper.files nestedStorage.path = .ok (some (emptyCatalog 2))) := by
  have hread : Storage.read ⟨.empty, []⟩ nestedStorage.path = .ok none := by decide +kernel
  have hplain : nestedStorage.path.IsPlain := ⟨by decide +kernel, by decide +kernel⟩
  have hreadable : Readable cutOff := by
    intro catalog hprepared
    simp [cutOff] at hprepared
    rcases hprepared with rfl | rfl
    · decide +kernel
    · decide +kernel
  obtain ⟨keeper, hrun, hunfinished⟩ := exists_run_cutOff
  refine ⟨keeper, hread, hrun, hreadable, ?_⟩
  obtain ⟨hcases, -, -⟩ := run_atomic hread (fun _ => ⟨isRooted_empty, hplain⟩) hrun hreadable
  rw [hunfinished] at hcases
  rcases hcases with hkept | ⟨catalog, hmem, hnew⟩
  · exact Or.inl hkept
  · cases hmem
    exact Or.inr hnew

/-! ## What a path need not show -/

/-- A query that has hardly begun. Its progress is next to `1e-24`, and read back it is `1e-24`. -/
def startedQuery : Query :=
  { Query.new (.ofNat 1) "warehouse" "SELECT 1" with progress := ⟨4247835366853742248⟩ }

/-- The catalog with that query. -/
def startedCatalog : Catalog :=
  { emptyCatalog 1 with queries := KeyMap.empty.insert startedQuery.id startedQuery }

/-- The written text is not made in the middle of the evaluation: its characters are parsed as they
are printed. -/
theorem decode_startedCatalog :
    Storage.decode (.text (Storage.encode startedCatalog)) ≠ .ok startedCatalog := by
  rw [Storage.decode, Storage.textOf, Json.decodeText, Storage.encode, Json.pretty, Json.parse,
    String.length_ofList, String.toList_ofList]
  decide +kernel

/-- A path into a missing directory and out of it again. -/
def looseStorage : Storage := ⟨⟨"data/../catalog.json"⟩, .ofNat 1⟩

/-- The files where it leads to another catalog once the directory is made. -/
def looseFiles : FileTree :=
  ⟨.ofList [(["catalog.json"], .file (.text (Storage.encode (emptyCatalog 7))) ⟨0, 0⟩)], []⟩

/-- A process that finds nothing at that path. -/
def looseKeeper : Keeper :=
  ⟨looseFiles, .idle (openedStore looseStorage.path looseStorage.process none)⟩

/-- The catalog in memory and the one at the path can differ after a commit that has returned
without an error, since a number may be read as its neighbour. And where a path leads out of a
missing directory, nothing is found at first, and a process that stops in a commit can leave another
catalog there, which is neither of the two. -/
theorem exists_strays :
    (∃ events files, Run nestedStorage.path nestedKeeper events
        ⟨files, .idle ⟨startedCatalog, some nestedStorage⟩⟩ ∧
      keptIn none events = some startedCatalog ∧
      Storage.read files nestedStorage.path ≠ .ok (some startedCatalog)) ∧
    ∃ events keeper, Storage.read looseFiles looseStorage.path = .ok none ∧
      Run looseStorage.path looseKeeper events keeper ∧
      keptIn none events = none ∧ keeper.keeping = .stopped (some (emptyCatalog 1)) ∧
      Storage.read keeper.files looseStorage.path = .ok (some (emptyCatalog 7)) := by
  refine ⟨?_, ?_⟩
  · have hreplay : (openedStore nestedStorage.path nestedStorage.process none).replay
        [.putQuery startedQuery] = .ok startedCatalog := by decide +kernel
    have hwritten : (FileStep.performAll ⟨0, 0⟩ ⟨.empty, []⟩
        (nestedStorage.writeSteps startedCatalog)).1 = .ok () := by decide +kernel
    have hall := Prod.ext hwritten (Eq.refl (FileStep.performAll ⟨0, 0⟩ ⟨.empty, []⟩
      (nestedStorage.writeSteps startedCatalog)).2)
    have hnil : Run nestedStorage.path nestedKeeper [] nestedKeeper := .nil
    have hprepared := hnil.step (.prepare rfl rfl hreplay)
    rw [← List.append_nil (Storage.writeSteps _ _)] at hprepared
    have hdone := (hprepared.performAll hall).step (.settle rfl)
    refine ⟨_, _, hdone, keptIn_append _ _ _, ?_⟩
    rw [Storage.read, (nestedStorage.phase_writeSteps _).read_of_performAll
      (fun hsteps => absurd hsteps (nestedStorage.writeSteps_ne_rename _))
      (nestedStorage.writeSteps_ne_nil _) hall]
    intro hread
    cases hdecode : Storage.decode (.text (Storage.encode startedCatalog)) with
    | error error => simp only [hdecode] at hread; cases hread
    | ok catalog =>
        simp only [hdecode] at hread
        cases hread
        exact decode_startedCatalog hdecode
  · have hreplay : (openedStore looseStorage.path looseStorage.process none).replay [] =
        .ok (emptyCatalog 1) := by decide +kernel
    have hsteps : looseStorage.writeSteps (emptyCatalog 1) =
        [.makeDirectories ⟨"data/.."⟩,
          .write looseStorage.temporaryPath (Storage.encode (emptyCatalog 1)),
          .rename looseStorage.temporaryPath looseStorage.path] := by decide +kernel
    have hmade : looseFiles.makeDirectories ⟨"data/.."⟩ ⟨0, 0⟩ =
        .ok ((looseFiles.makeDirectories ⟨"data/.."⟩ ⟨0, 0⟩).toOption.getD looseFiles) := by
      decide +kernel
    have hnil : Run looseStorage.path looseKeeper [] looseKeeper := .nil
    have hprepared := hnil.step (.prepare rfl rfl hreplay)
    rw [show Storage.writeSteps ⟨looseStorage.path, looseStorage.process⟩ (emptyCatalog 1) = _
      from hsteps] at hprepared
    have hstopped := (hprepared.step (.perform rfl hmade)).step .stop
    refine ⟨_, _, by decide +kernel, hstopped, rfl, rfl, ?_⟩
    decide +kernel

end Keeper

end MetricCatalog
