/-
# How a definition and its entry stand

While a definition is taken into the catalog, its entry is what it was before,
or dropped, or made anew, and how far the task has come tells which. The steps
of the task keep to this whatever happens in between, as long as nobody else
touches the entry, and none of their flushes fails. How much is said of the
columns of a node is left to a forecast.
-/

import MetricCatalog.Compile.Repository
import MetricCatalog.Proofs.Compile.Probing
import MetricCatalog.Proofs.Compile.Progress
import MetricCatalog.Proofs.Compile.Replacing

namespace MetricCatalog

variable {σ γ : Type} {kind : DefinitionKind} {name : String}

/-! ## Entries by kind -/

theorem Catalog.entryOf?_database {catalog : Catalog} {entry : Option Database} :
    catalog.entryOf? .database name = entry.map .database ↔
      catalog.databases.find? name = entry :=
  (Option.map_injective fun _ _ hsame => Entry.database.inj hsame).eq_iff

theorem Catalog.entryOf?_node {catalog : Catalog} {entry : Option Node} :
    catalog.entryOf? .node name = entry.map .node ↔ catalog.nodes.find? name = entry :=
  (Option.map_injective fun _ _ hsame => Entry.node.inj hsame).eq_iff

/-! ## Definitions -/

/-- No entry is as new as the definition. -/
def Definition.IsOutdated {α : Type} (definition : Definition α) (updated : Option Instant) :
    Prop :=
  ∀ time ∈ updated, ¬ definition.modified ≤ time

theorem Definition.isOutdated_iff {α β : Type} {definition : Definition α} {stored : Option β}
    {updatedAt : β → Instant} :
    definition.IsOutdated (stored.map updatedAt) ↔
      stored.filter (fun entry => definition.modified ≤ updatedAt entry) = none := by
  cases stored with
  | none => simp [IsOutdated]
  | some entry => simp [IsOutdated]

/-- The entry is as new as the definition. -/
theorem Definition.exists_current {α β : Type} {definition : Definition α} {stored : Option β}
    {updatedAt : β → Instant} (hcurrent : ¬ definition.IsOutdated (stored.map updatedAt)) :
    ∃ entry, stored = some entry ∧ definition.modified ≤ updatedAt entry := by
  cases stored with
  | none => exact absurd (by simp [IsOutdated]) hcurrent
  | some entry => exact ⟨entry, rfl, by simpa [IsOutdated] using hcurrent⟩

theorem Definition.load_eq_ok {α : Type} {read : Yaml.Decoder α} {files : FileTree}
    {root path : Path} {definition : Definition α}
    (hload : load read files root path = .ok definition) :
    definition.path = path ∧ nameOf root path = .ok definition.name ∧
      modifiedAt files path = .ok definition.modified ∧
      readConfig read files path = .ok definition.config := by
  unfold load at hload
  cases hname : nameOf root path with
  | error error =>
      rw [hname] at hload
      cases hload
  | ok name =>
      cases hmodified : modifiedAt files path with
      | error error =>
          rw [hname, hmodified] at hload
          cases hload
      | ok modified =>
          cases hconfig : readConfig read files path with
          | error error =>
              rw [hname, hmodified, hconfig] at hload
              cases hload
          | ok config =>
              rw [hname, hmodified, hconfig] at hload
              cases hload
              exact ⟨rfl, rfl, rfl, rfl⟩

/-- The definitions of databases that load. -/
def Repository.loadDatabases (files : FileTree) (root : Path) :
    List (Definition DatabaseConfig) :=
  (Definition.discover files root .database).filterMap fun path =>
    (Definition.load Yaml.readDatabaseConfig files root path).toOption

namespace DatabaseTask

/-! ## Databases -/

variable {root path : Path} {files : FileTree} {workspace : Workspace σ}
  {definition : Definition DatabaseConfig} {stored entry : Option Database} {task : DatabaseTask}

/-- How far a definition has come that loads, and its entry, given the one that was stored. -/
inductive Stands (definition : Definition DatabaseConfig) (stored : Option Database) :
    DatabaseTask → Option Database → Prop
  | found : Stands definition stored (.found definition.path) stored
  | dated :
      Stands definition stored (.dated definition.path definition.name definition.modified) stored
  | outdated (hold : definition.IsOutdated (stored.map (·.updatedAt))) :
      Stands definition stored (.outdated definition.path definition.name stored) stored
  | loaded (hold : definition.IsOutdated (stored.map (·.updatedAt))) :
      Stands definition stored (.loaded definition.name stored definition.config) stored
  | kept {database : Database} (hstored : stored = some database)
      (hcurrent : definition.modified ≤ database.updatedAt) :
      Stands definition stored (.done (.ok database)) stored
  | made (hold : definition.IsOutdated (stored.map (·.updatedAt))) (id : Uuid) (now : Instant) :
      Stands definition stored
        (.done (.ok (record definition.name stored definition.config id now)))
        (some (record definition.name stored definition.config id now))

/-- How far a definition can come that does not load. -/
inductive Idles (root : Path) (files : FileTree) (path : Path) : DatabaseTask → Prop
  | found : Idles root files path (.found path)
  | dated {name : String} {modified : Instant} (hname : Definition.nameOf root path = .ok name)
      (hmodified : Definition.modifiedAt files path = .ok modified) :
      Idles root files path (.dated path name modified)
  | outdated {name : String} {modified : Instant} (existing : Option Database)
      (hname : Definition.nameOf root path = .ok name)
      (hmodified : Definition.modifiedAt files path = .ok modified) :
      Idles root files path (.outdated path name existing)
  | kept (database : Database) : Idles root files path (.done (.ok database))
  | failed (error : DefinitionError) :
      Idles root files path (.done (.error (.definition error)))

/-- The entry that is there is replaced, and it cannot be otherwise. -/
theorem replace_eq_ok (hflushed : workspace.session.pending = []) (config : DatabaseConfig)
    (hfound : workspace.session.view.databases.find? name = stored) :
    ∃ id now session,
      workspace.session.Puts .database name (some (.database (record name stored config id now)))
        session ∧
      replace name stored config workspace =
        (.ok (record name stored config id now),
          { workspace.stamped with session := session }) := by
  obtain ⟨session, hdropped, hdrop⟩ := Workspace.exists_drop stored Entry.database hflushed
    (Catalog.entryOf?_database.mpr hfound)
  let middle : Workspace σ := { workspace with session := session }
  let made := record name stored config middle.stamp.1 middle.stamp.2.1
  have hfree : middle.stamped.session.view.entryOf? (Entry.database made).kind
      (Entry.database made).name = none := hdropped.self
  obtain ⟨last, hputs, hmake⟩ := middle.stamped.exists_create hdropped.flushed hfree
  have hchange : middle.stamped.change (.createDatabase made) =
      (.ok (), { workspace.stamped with session := last }) := hmake
  refine ⟨_, _, last, hdropped.trans hputs, ?_⟩
  simp only [DefinitionKind.drop] at hdrop
  simp only [replace_eq, hdrop]
  rw [hchange]
  rfl

/-- A step leaves the files alone, and all entries but that of the definition. -/
theorem Stands.step
    (hload : Definition.load Yaml.readDatabaseConfig workspace.environment.files root path =
      .ok definition)
    (hflushed : workspace.session.pending = [])
    (hentry : workspace.session.view.databases.find? definition.name = entry)
    (hstands : Stands definition stored task entry) :
    ∃ after, Stands definition stored (task.step root workspace).1 after ∧
      workspace.session.Puts .database definition.name (after.map .database)
        (task.step root workspace).2.session := by
  obtain ⟨hpath, hname, hmodified, hconfig⟩ := Definition.load_eq_ok hload
  rw [← hpath] at hname hmodified hconfig
  have hsame := Session.Puts.same hflushed (Catalog.entryOf?_database.mpr hentry)
  cases hstands with
  | found =>
      simp only [DatabaseTask.step, hname, hmodified]
      exact ⟨_, .dated, hsame⟩
  | dated =>
      have hfound : workspace.session.database? definition.name = stored := hentry
      simp only [DatabaseTask.step, hfound]
      cases stored with
      | none => exact ⟨_, .outdated (by simp [Definition.IsOutdated]), hsame⟩
      | some database =>
          simp only
          split
          · rename_i hcurrent
            exact ⟨_, .kept rfl hcurrent, hsame⟩
          · rename_i hold
            exact ⟨_, .outdated (by simpa [Definition.IsOutdated] using hold), hsame⟩
  | outdated hold =>
      simp only [DatabaseTask.step, hconfig]
      exact ⟨_, .loaded hold, hsame⟩
  | loaded hold =>
      obtain ⟨id, now, session, hputs, hreplace⟩ :=
        replace_eq_ok hflushed definition.config hentry
      simp only [DatabaseTask.step, hreplace]
      exact ⟨some _, .made hold id now, hputs⟩
  | kept hstored hcurrent => exact ⟨_, .kept hstored hcurrent, hsame⟩
  | made hold id now => exact ⟨some _, .made hold id now, hsame⟩

/-- A definition that does not load never touches the catalog. -/
theorem Idles.step {error : DefinitionError}
    (hload : Definition.load Yaml.readDatabaseConfig workspace.environment.files root path =
      .error error)
    (hidles : Idles root workspace.environment.files path task) :
    Idles root workspace.environment.files path (task.step root workspace).1 ∧
      (task.step root workspace).2 = workspace := by
  cases hidles with
  | found =>
      simp only [DatabaseTask.step]
      cases hname : Definition.nameOf root path with
      | error error => exact ⟨.failed error, rfl⟩
      | ok name =>
          cases hmodified : Definition.modifiedAt workspace.environment.files path with
          | error error => exact ⟨.failed error, rfl⟩
          | ok modified => exact ⟨.dated hname hmodified, rfl⟩
  | @dated name modified hname hmodified =>
      simp only [DatabaseTask.step]
      cases workspace.session.database? name with
      | none => exact ⟨.outdated none hname hmodified, rfl⟩
      | some existing =>
          simp only
          split
          · exact ⟨.kept existing, rfl⟩
          · exact ⟨.outdated (some existing) hname hmodified, rfl⟩
  | outdated existing hname hmodified =>
      simp only [DatabaseTask.step]
      cases hconfig : Definition.readConfig Yaml.readDatabaseConfig workspace.environment.files
        path with
      | error error => exact ⟨.failed error, rfl⟩
      | ok config =>
          rw [Definition.load, hname, hmodified, hconfig] at hload
          cases hload
  | kept database => exact ⟨.kept database, rfl⟩
  | failed error => exact ⟨.failed error, rfl⟩

end DatabaseTask

/-! ## Forecasts -/

/-- What is said in advance of readings and of the columns they come to, given the databases. -/
structure Forecast (σ : Type) where
  /-- The readings that may be under way for some representations. -/
  gives : KeyMap String Database → List Representation → List (Reading (Environment σ)) → Prop
  /-- The columns that may be told of some representations. -/
  columns : KeyMap String Database → List Representation → List Column → Prop

namespace Forecast

/-- The forecast is right from the start of readings to the last answer. -/
structure Holds (forecast : Forecast σ) (drivers : Drivers (Environment σ) γ)
    (steady : Environment σ → Prop) : Prop where
  start : ∀ clock databases representations environment, steady environment →
    forecast.gives databases representations
      (Reading.startAll drivers clock databases representations environment).1
  wake : ∀ clock databases representations readings environment, steady environment →
    forecast.gives databases representations readings →
      forecast.gives databases representations (Reading.wakeAll clock readings environment).1
  merge : ∀ databases representations readings answers,
    forecast.gives databases representations readings →
      readings.mapM Reading.answer? = some answers →
        forecast.columns databases representations (Column.mergeAll answers)

/-- Something that is true of the surroundings stays true when nodes are compiled. -/
structure Keeps (forecast : Forecast σ) (drivers : Drivers (Environment σ) γ)
    (holds : Environment σ → Prop) : Prop where
  start : ∀ clock databases representations environment, holds environment →
    holds (Reading.startAll drivers clock databases representations environment).2
  wake : ∀ clock databases representations readings environment, holds environment →
    forecast.gives databases representations readings →
      holds (Reading.wakeAll clock readings environment).2
  stamp : ∀ environment, holds environment →
    holds environment.readClock.2 ∧ holds environment.newId.2

/-- Nothing is said. -/
def silent : Forecast σ := ⟨fun _ _ _ => True, fun _ _ _ => True⟩

theorem silent_holds (drivers : Drivers (Environment σ) γ) (steady : Environment σ → Prop) :
    Holds silent drivers steady :=
  ⟨fun _ _ _ _ _ => trivial, fun _ _ _ _ _ _ _ => trivial, fun _ _ _ _ _ _ => trivial⟩

theorem silent_keeps (drivers : Drivers (Environment σ) γ) :
    silent.Keeps drivers fun _ => True :=
  ⟨fun _ _ _ _ _ => trivial, fun _ _ _ _ _ _ _ => trivial, fun _ _ => ⟨trivial, trivial⟩⟩

/-- The columns that the answers of probes make up. -/
def columnsTold (answer : Answering) (databases : KeyMap String Database)
    (found : List Representation) : List Column :=
  Column.mergeAll (Reading.expected answer databases found)

/-- Where each probe has one answer, the columns can be said. -/
def ofAnswers (steady : Environment σ → Prop) (answer : Answering) : Forecast σ where
  gives := fun databases found =>
    Reading.GiveAll steady (Reading.expected answer databases found)
  columns := fun databases found merged => merged = columnsTold answer databases found

theorem ofAnswers_holds {drivers : Drivers (Environment σ) γ} {steady : Environment σ → Prop}
    {answer : Answering} (hanswers : drivers.Answers steady answer) :
    (ofAnswers steady answer).Holds drivers steady where
  start := fun clock databases found _ hsteady =>
    (hanswers.startAll clock databases found hsteady).1
  wake := fun clock _ _ _ _ hsteady hgives => (hgives.wakeAll clock hsteady).1
  merge := fun _ _ _ _ hgives hfound => congrArg Column.mergeAll (hgives.answers_eq hfound)

theorem ofAnswers_keeps {drivers : Drivers (Environment σ) γ} {steady : Environment σ → Prop}
    {answer : Answering} (hanswers : drivers.Answers steady answer) :
    (ofAnswers steady answer).Keeps drivers steady where
  start := fun clock databases found _ hsteady =>
    (hanswers.startAll clock databases found hsteady).2
  wake := fun clock _ _ _ _ hsteady hgives => (hgives.wakeAll clock hsteady).2
  stamp := hanswers.stamp

end Forecast

namespace NodeTask

/-! ## Nodes -/

variable {drivers : Drivers (Environment σ) γ} {databases : KeyMap String Database}
  {steady : Environment σ → Prop} {forecast : Forecast σ} {workspace : Workspace σ}
  {definition : NodeDefinition} {stored entry : Option Node} {task : NodeTask σ}

/-- How far a definition has come, and its entry, given the one that was stored. -/
inductive Stands (forecast : Forecast σ) (databases : KeyMap String Database)
    (definition : NodeDefinition) (stored : Option Node) : NodeTask σ → Option Node → Prop
  | ready : Stands forecast databases definition stored .ready stored
  | reading {found : List Representation} {readings : List (Reading (Environment σ))}
      (hold : definition.IsOutdated (stored.map (·.updatedAt)))
      (hfound : representations databases definition = .ok found)
      (hgives : forecast.gives databases found readings) :
      Stands forecast databases definition stored (.reading stored found readings) none
  | kept {node : Node} (hstored : stored = some node)
      (hcurrent : definition.modified ≤ node.updatedAt) :
      Stands forecast databases definition stored (.done (.ok node)) stored
  | made {found : List Representation} {merged : List Column}
      (hold : definition.IsOutdated (stored.map (·.updatedAt)))
      (hfound : representations databases definition = .ok found)
      (hcolumns : forecast.columns databases found merged) (id : Uuid) (now : Instant) :
      Stands forecast databases definition stored
        (.done (.ok (record definition stored found merged id now)))
        (some (record definition stored found merged id now))
  | refused {error : CompileError} (hold : definition.IsOutdated (stored.map (·.updatedAt)))
      (herror : representations databases definition = .error error) :
      Stands forecast databases definition stored (.done (.error error)) stored

/-- With its entry dropped a definition waits for answers, or its node is made. -/
theorem Stands.settle (hforecast : forecast.Holds drivers steady)
    (hold : definition.IsOutdated (stored.map (·.updatedAt))) {found : List Representation}
    (hfound : representations databases definition = .ok found)
    {readings : List (Reading (Environment σ))} (hgives : forecast.gives databases found readings)
    (hflushed : workspace.session.pending = [])
    (hnone : workspace.session.view.entryOf? .node definition.name = none) :
    ∃ after, Stands forecast databases definition stored
        (NodeTask.settle definition stored found readings workspace).1 after ∧
      workspace.session.Puts .node definition.name (after.map .node)
        (NodeTask.settle definition stored found readings workspace).2.session := by
  unfold NodeTask.settle
  cases hanswers : readings.mapM Reading.answer? with
  | none => exact ⟨none, .reading hold hfound hgives, .same hflushed hnone⟩
  | some answers =>
      let node := record definition stored found (Column.mergeAll answers) workspace.stamp.1
        workspace.stamp.2.1
      have hfree : workspace.stamped.session.view.entryOf? (Entry.node node).kind
          (Entry.node node).name = none := hnone
      obtain ⟨session, hputs, hmake⟩ := workspace.stamped.exists_create hflushed hfree
      have hchange : workspace.stamp.2.2.change (.createNode node) =
          (.ok (), { workspace.stamped with session := session }) := hmake
      have hcolumns := hforecast.merge databases found readings answers hgives hanswers
      refine ⟨some node, ?_, ?_⟩
      · simp only
        rw [hchange]
        exact .made hold hfound hcolumns _ _
      · simp only
        rw [hchange]
        exact hputs

/-- A step leaves all entries alone but that of the definition. -/
theorem Stands.step (hforecast : forecast.Holds drivers steady) (clock : Nat)
    (hsteady : steady workspace.environment) (hflushed : workspace.session.pending = [])
    (hentry : workspace.session.view.nodes.find? definition.name = entry)
    (hstands : Stands forecast databases definition stored task entry) :
    ∃ after, Stands forecast databases definition stored
        (task.step drivers databases clock definition workspace).1 after ∧
      workspace.session.Puts .node definition.name (after.map .node)
        (task.step drivers databases clock definition workspace).2.session := by
  have hsame := Session.Puts.same hflushed (Catalog.entryOf?_node.mpr hentry)
  cases hstands with
  | ready =>
      have hstored : workspace.session.node? definition.name = stored := hentry
      simp only [NodeTask.step, hstored]
      cases hfilter : stored.filter fun node => definition.modified ≤ node.updatedAt with
      | some node =>
          obtain ⟨hnode, hcurrent⟩ := Option.filter_eq_some_iff.mp hfilter
          exact ⟨stored, .kept hnode (of_decide_eq_true hcurrent), hsame⟩
      | none =>
          have hold : definition.IsOutdated (stored.map (·.updatedAt)) :=
            Definition.isOutdated_iff.mpr hfilter
          simp only
          cases hfound : representations databases definition with
          | error error => exact ⟨stored, .refused hold hfound, hsame⟩
          | ok found =>
              obtain ⟨session, hdropped, hdrop⟩ := Workspace.exists_drop stored Entry.node hflushed
                (Catalog.entryOf?_node.mpr hentry)
              simp only [DefinitionKind.drop] at hdrop
              simp only [startReading_eq, hdrop]
              let middle : Workspace σ := ⟨session,
                (Reading.startAll drivers clock databases found workspace.environment).2⟩
              have hflushed : middle.session.pending = [] := hdropped.flushed
              obtain ⟨after, hafter, hputs⟩ := Stands.settle hforecast hold hfound
                (hforecast.start clock databases found workspace.environment hsteady) hflushed
                hdropped.self
              exact ⟨after, hafter, hdropped.trans hputs⟩
  | @reading found readings hold hfound hgives =>
      simp only [NodeTask.step]
      exact Stands.settle hforecast hold hfound
        (hforecast.wake clock databases found readings workspace.environment hsteady hgives)
        hflushed (Catalog.entryOf?_node.mpr hentry)
  | kept hstored hcurrent => exact ⟨stored, .kept hstored hcurrent, hsame⟩
  | made hold hfound hcolumns id now => exact ⟨some _, .made hold hfound hcolumns id now, hsame⟩
  | refused hold herror => exact ⟨stored, .refused hold herror, hsame⟩

/-! ### Surroundings -/

variable {holds : Environment σ → Prop}

theorem keeps_settle (hkeeps : forecast.Keeps drivers holds) (definition : NodeDefinition)
    (existing : Option Node) (found : List Representation)
    (readings : List (Reading (Environment σ))) (hholds : holds workspace.environment) :
    holds (NodeTask.settle definition existing found readings workspace).2.environment := by
  unfold NodeTask.settle
  split
  · exact hholds
  · exact (hkeeps.stamp _ (hkeeps.stamp _ hholds).1).2

theorem environment_drop (workspace : Workspace σ) (existing : Option Node)
    (mutation : Mutation) :
    (existing.elim (.ok (), workspace) fun _ => workspace.change mutation).2.environment =
      workspace.environment := by
  cases existing <;> rfl

/-- What holds of the surroundings does so while a node is compiled. -/
theorem keeps_step (hkeeps : forecast.Keeps drivers holds)
    (hstands : Stands forecast databases definition stored task entry) (clock : Nat)
    (hholds : holds workspace.environment) :
    holds (task.step drivers databases clock definition workspace).2.environment := by
  cases hstands with
  | ready =>
      simp only [NodeTask.step]
      split
      · exact hholds
      · split
        · exact hholds
        · rename_i found _
          simp only [startReading_eq]
          have hmiddle := environment_drop workspace (workspace.session.node? definition.name)
            (.dropNode definition.name)
          split
          · rename_i error middle hdrop
            rw [hdrop] at hmiddle
            rw [hmiddle]
            exact hholds
          · rename_i middle hdrop
            rw [hdrop] at hmiddle
            refine keeps_settle hkeeps definition _ found _ ?_
            simp only at hmiddle ⊢
            rw [hmiddle]
            exact hkeeps.start clock databases found _ hholds
  | @reading found readings hold hfound hgives =>
      simp only [NodeTask.step]
      exact keeps_settle hkeeps definition _ found _
        (hkeeps.wake clock databases found readings _ hholds hgives)
  | kept | made | refused => exact hholds

end NodeTask

end MetricCatalog
