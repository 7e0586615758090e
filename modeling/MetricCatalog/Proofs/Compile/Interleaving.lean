/-
# Compile runs in any order

A run takes the definitions of databases into the catalog, all at the same time,
and those of nodes when it is done with them, as many at the same time as do not
depend on each other. Which of the tasks goes on next is left open here. The
tasks share one session, but each of them only touches the entry of its own
definition, so in every order the buffer of the session is empty whenever a task
waits, and none of the flushes fails.
-/

import Mathlib.Data.List.Perm.Basic
import Mathlib.Logic.Relation
import MetricCatalog.Proofs.Compile.Standing
import MetricCatalog.Proofs.Schedule.Outcome

namespace MetricCatalog

/-- What a compile run is about. -/
structure CompileSetting (σ γ : Type) where
  drivers : Drivers (Environment σ) γ
  /-- The names that an expression depends on. -/
  extract : String → NameSet
  root : Path
  /-- The files while databases are indexed and definitions of nodes are loaded. -/
  files : FileTree
  /-- The surroundings in which nodes are compiled. -/
  steady : Environment σ → Prop

/-- The definitions of databases that load. -/
def CompileSetting.databases {σ γ : Type} (setting : CompileSetting σ γ) :
    List (Definition DatabaseConfig) :=
  Repository.loadDatabases setting.files setting.root

/-- The definitions of nodes that load. -/
def CompileSetting.nodes {σ γ : Type} (setting : CompileSetting σ γ) : List NodeDefinition :=
  (Repository.loadNodes setting.files setting.root).2

/-- The tasks of a run, by how far it has come. -/
inductive TaskStage (σ : Type)
  /-- Databases are being indexed. -/
  | indexing (tasks : List (Path × DatabaseTask))
  /-- Nodes are being compiled, with the databases that were there when the first one began. -/
  | compiling (databases : KeyMap String Database) (phase : Schedule.Phase)
      (schedule : Schedule) (tasks : String → NodeTask σ)

/-- Some task has ended because the session did not take its change. -/
def TaskStage.FlushFailed {σ : Type} : TaskStage σ → Prop
  | indexing tasks => ∃ pair ∈ tasks, ∃ error, pair.2 = .done (.error (.store error))
  | compiling _ _ _ tasks => ∃ name error, tasks name = .done (.error (.store error))

/-- A run between two steps. -/
structure Compilation (σ : Type) where
  stage : TaskStage σ
  workspace : Workspace σ

namespace Compilation

variable {σ γ : Type}

/-- The run has come to its end. -/
def IsOver (current : Compilation σ) : Prop :=
  ∃ databases schedule tasks,
    current.stage = .compiling databases .looking schedule tasks ∧ schedule.IsOver

/-- The beginning of a run, on top of a catalog. -/
def begin (setting : CompileSetting σ γ) (base : Catalog) (environment : Environment σ) :
    Compilation σ :=
  ⟨.indexing ((Definition.discover setting.files setting.root .database).map fun path =>
    (path, .found path)), ⟨.start base, environment⟩⟩

/-- A step of a run. Before a task goes on, the surroundings may have changed, but not the files
while databases are indexed, and nodes find them steady. -/
inductive Step (setting : CompileSetting σ γ) (current : Compilation σ) : Compilation σ → Prop
  /-- A database goes on to the next point at which it waits. -/
  | index {front rest : List (Path × DatabaseTask)} {path : Path} {task : DatabaseTask}
      (hstage : current.stage = .indexing (front ++ (path, task) :: rest))
      {environment : Environment σ} (hfiles : environment.files = setting.files)
      {next : DatabaseTask × Workspace σ}
      (hnext : task.step setting.root { current.workspace with environment := environment } =
        next) :
      Step setting current ⟨.indexing (front ++ (path, next.1) :: rest), next.2⟩
  /-- All databases have been indexed, and the definitions of nodes are loaded. -/
  | load {tasks : List (Path × DatabaseTask)} (hstage : current.stage = .indexing tasks)
      (hdone : ∀ pair ∈ tasks, ∃ result, pair.2 = .done result) :
      Step setting current
        ⟨.compiling current.workspace.session.databasesByName .looking
          (.ofDefinitions setting.extract setting.nodes) fun _ => .ready, current.workspace⟩
  /-- All nodes that are ready are started. -/
  | start {databases : KeyMap String Database} {schedule : Schedule}
      {tasks : String → NodeTask σ}
      (hstage : current.stage = .compiling databases .looking schedule tasks)
      (hopen : ¬ schedule.IsOver) :
      Step setting current ⟨.compiling databases .waiting schedule.start tasks, current.workspace⟩
  /-- A node goes on to the next point at which it waits. -/
  | turn {databases : KeyMap String Database} {schedule : Schedule} {tasks : String → NodeTask σ}
      {definition : NodeDefinition}
      (hstage : current.stage = .compiling databases .waiting schedule tasks)
      (hflight : definition ∈ schedule.inFlight) (clock : Nat) {environment : Environment σ}
      (hsteady : setting.steady environment) {next : NodeTask σ × Workspace σ}
      (hnext : (tasks definition.name).step setting.drivers databases clock definition
        { current.workspace with environment := environment } = next) :
      Step setting current
        ⟨.compiling databases .waiting schedule (Function.update tasks definition.name next.1),
          next.2⟩
  /-- A node that has ended is noted. -/
  | complete {databases : KeyMap String Database} {schedule : Schedule}
      {tasks : String → NodeTask σ} {definition : NodeDefinition}
      {result : Except CompileError Node}
      (hstage : current.stage = .compiling databases .waiting schedule tasks)
      (hflight : definition ∈ schedule.inFlight) (hdone : tasks definition.name = .done result) :
      Step setting current
        ⟨.compiling databases .looking (schedule.complete definition result) tasks,
          current.workspace⟩

/-- The runs, from one state to another. -/
def Run (setting : CompileSetting σ γ) : Compilation σ → Compilation σ → Prop :=
  Relation.ReflTransGen (Step setting)

end Compilation

/-! ## Entries that are made or left -/

/-- What becomes of an entry of which some record may be made: it is left, or made with a new
identifier at some time. -/
inductive Becomes {α : Type} (makes : (Uuid → Instant → α) → Prop) (stored : Option α) :
    Option α → Prop
  | left (hnone : ∀ record, ¬ makes record) : Becomes makes stored stored
  | made {record : Uuid → Instant → α} (hmakes : makes record) (id : Uuid) (now : Instant) :
      Becomes makes stored (some (record id now))

/-- The record that a definition makes of a database in the place of an old one. -/
def DatabaseTask.Makes (definitions : List (Definition DatabaseConfig)) (stored : Option Database)
    (name : String) (made : Uuid → Instant → Database) : Prop :=
  ∃ definition ∈ definitions, definition.name = name ∧
    definition.IsOutdated (stored.map (·.updatedAt)) ∧ made = record name stored definition.config

/-- The record that a definition makes of a node in the place of an old one, if it is started. -/
def NodeTask.Makes (definitions : List NodeDefinition) (started : NodeDefinition → Prop)
    (databases : KeyMap String Database) (columns : List Representation → List Column → Prop)
    (stored : Option Node) (name : String) (made : Uuid → Instant → Node) : Prop :=
  ∃ definition ∈ definitions, definition.name = name ∧ started definition ∧
    definition.IsOutdated (stored.map (·.updatedAt)) ∧
    ∃ found merged, representations databases definition = .ok found ∧ columns found merged ∧
      made = record definition stored found merged

/-! ## Frames -/

namespace Catalog.AgreesBut

variable {kind : DefinitionKind} {name other : String} {first second : Catalog}

theorem find?_database (hagrees : first.AgreesBut kind name second)
    (hother : .database ≠ kind ∨ other ≠ name) :
    second.databases.find? other = first.databases.find? other :=
  entryOf?_database.mp (hagrees.entries .database other hother)

theorem find?_node (hagrees : first.AgreesBut kind name second)
    (hother : .node ≠ kind ∨ other ≠ name) :
    second.nodes.find? other = first.nodes.find? other :=
  entryOf?_node.mp (hagrees.entries .node other hother)

theorem databases_eq (hagrees : first.AgreesBut .node name second) :
    second.databases = first.databases :=
  KeyMap.ext_find? fun _ => hagrees.find?_database (Or.inl (by decide))

theorem nodes_eq (hagrees : first.AgreesBut .database name second) :
    second.nodes = first.nodes :=
  KeyMap.ext_find? fun _ => hagrees.find?_node (Or.inl (by decide))

end Catalog.AgreesBut

/-- What two items of a list give has different keys, if all the keys are different. -/
theorem ne_of_nodup_filterMap {α β κ : Type} {f : α → Option β} {key : β → κ}
    {front rest : List α} {item other : α} {value otherValue : β}
    (hnodup : (((front ++ item :: rest).filterMap f).map key).Nodup) (hitem : f item = some value)
    (hmem : other ∈ front ++ rest) (hother : f other = some otherValue) :
    key otherValue ≠ key value := by
  have hmiddle : (front ++ item :: rest).Perm (item :: (front ++ rest)) := List.perm_middle
  rw [((hmiddle.filterMap f).map key).nodup_iff, List.filterMap_cons, hitem, List.map_cons,
    List.nodup_cons] at hnodup
  intro heq
  apply hnodup.1
  rw [← heq]
  exact List.mem_map_of_mem (List.mem_filterMap.mpr ⟨other, hmem, hother⟩)

namespace Compilation

variable {σ γ : Type} {setting : CompileSetting σ γ} {base : Catalog} {forecast : Forecast σ}

/-! ## Databases being indexed -/

/-- How far a database has come. -/
def Tracks (setting : CompileSetting σ γ) (base view : Catalog) (pair : Path × DatabaseTask) :
    Prop :=
  match Definition.load Yaml.readDatabaseConfig setting.files setting.root pair.1 with
  | .ok definition =>
      DatabaseTask.Stands definition (base.databases.find? definition.name) pair.2
        (view.databases.find? definition.name)
  | .error _ => DatabaseTask.Idles setting.root setting.files pair.1 pair.2

theorem Tracks.stands {view : Catalog} {pair : Path × DatabaseTask}
    (htracks : Tracks setting base view pair) {definition : Definition DatabaseConfig}
    (hload : Definition.load Yaml.readDatabaseConfig setting.files setting.root pair.1 =
      .ok definition) :
    DatabaseTask.Stands definition (base.databases.find? definition.name) pair.2
      (view.databases.find? definition.name) := by
  rw [Tracks, hload] at htracks
  exact htracks

theorem Tracks.idles {view : Catalog} {pair : Path × DatabaseTask}
    (htracks : Tracks setting base view pair) {error : DefinitionError}
    (hload : Definition.load Yaml.readDatabaseConfig setting.files setting.root pair.1 =
      .error error) : DatabaseTask.Idles setting.root setting.files pair.1 pair.2 := by
  rw [Tracks, hload] at htracks
  exact htracks

/-- How far a run has come that indexes databases. -/
structure Indexes (setting : CompileSetting σ γ) (base : Catalog)
    (tasks : List (Path × DatabaseTask)) (view : Catalog) : Prop where
  paths : tasks.map (·.1) = Definition.discover setting.files setting.root .database
  tracks : ∀ pair ∈ tasks, Tracks setting base view pair
  others : ∀ name, name ∉ setting.databases.map (·.name) →
    view.databases.find? name = base.databases.find? name
  nodes : view.nodes = base.nodes
  version : view.version = base.version
  queries : view.queries = base.queries

theorem indexes_begin (setting : CompileSetting σ γ) (base : Catalog) :
    Indexes setting base ((Definition.discover setting.files setting.root .database).map fun path =>
      (path, .found path)) base where
  paths := by simp [Function.comp_def]
  tracks := by
    intro pair hpair
    obtain ⟨path, -, rfl⟩ := List.mem_map.mp hpair
    unfold Tracks
    split
    · rename_i definition hload
      obtain ⟨hpath, -⟩ := Definition.load_eq_ok hload
      simp only at hpath ⊢
      rw [← hpath]
      exact .found
    · exact .found
  others := fun _ _ => rfl
  nodes := rfl
  version := rfl
  queries := rfl

/-- A task whose definition has another name is not concerned by a step. -/
theorem Tracks.agreesBut {view next : Catalog} {pair : Path × DatabaseTask} {name : String}
    (htracks : Tracks setting base view pair) (hagrees : view.AgreesBut .database name next)
    (hother : ∀ definition,
      Definition.load Yaml.readDatabaseConfig setting.files setting.root pair.1 = .ok definition →
        definition.name ≠ name) : Tracks setting base next pair := by
  unfold Tracks
  split
  · rename_i definition hload
    rw [hagrees.find?_database (Or.inr (hother definition hload))]
    exact htracks.stands hload
  · rename_i error hload
    exact htracks.idles hload

section

variable {front rest : List (Path × DatabaseTask)} {path : Path} {task next : DatabaseTask}

/-- The paths are the same whatever becomes of a task. -/
theorem Indexes.paths_replace {view : Catalog}
    (hindexes : Indexes setting base (front ++ (path, task) :: rest) view)
    (next : DatabaseTask) :
    (front ++ (path, next) :: rest).map (·.1) =
      Definition.discover setting.files setting.root .database := by
  rw [← hindexes.paths]
  simp

/-- The definition of a task is among those that load. -/
theorem Indexes.mem_databases {tasks : List (Path × DatabaseTask)} {view : Catalog}
    (hindexes : Indexes setting base tasks view) {pair : Path × DatabaseTask} (hpair : pair ∈ tasks)
    {definition : Definition DatabaseConfig}
    (hload : Definition.load Yaml.readDatabaseConfig setting.files setting.root pair.1 =
      .ok definition) : definition ∈ setting.databases := by
  refine List.mem_filterMap.mpr ⟨pair.1, ?_, congrArg Except.toOption hload⟩
  rw [← hindexes.paths]
  exact List.mem_map_of_mem hpair

/-- A task whose definition does not load goes on. -/
theorem Indexes.idle {view : Catalog} {error : DefinitionError}
    (hindexes : Indexes setting base (front ++ (path, task) :: rest) view)
    (hload : Definition.load Yaml.readDatabaseConfig setting.files setting.root path =
      .error error)
    (hidles : DatabaseTask.Idles setting.root setting.files path next) :
    Indexes setting base (front ++ (path, next) :: rest) view := by
  refine { hindexes with paths := hindexes.paths_replace next, tracks := ?_ }
  intro pair hpair
  rcases List.mem_append.mp hpair with hfront | hback
  · exact hindexes.tracks pair (List.mem_append_left _ hfront)
  · rcases List.mem_cons.mp hback with rfl | hrest
    · rw [Tracks, hload]
      exact hidles
    · exact hindexes.tracks pair (by simp [hrest])

/-- A task goes on, and the entry of its definition is put. The definitions of the other tasks
have other names. -/
theorem Indexes.put {session later : Session} {definition : Definition DatabaseConfig}
    {entry : Option Database} (hnames : (setting.databases.map (·.name)).Nodup)
    (hindexes : Indexes setting base (front ++ (path, task) :: rest) session.view)
    (hload : Definition.load Yaml.readDatabaseConfig setting.files setting.root path =
      .ok definition)
    (hstands : DatabaseTask.Stands definition (base.databases.find? definition.name) next entry)
    (hputs : session.Puts .database definition.name (entry.map .database) later) :
    Indexes setting base (front ++ (path, next) :: rest) later.view := by
  have hdefinition : definition ∈ setting.databases :=
    hindexes.mem_databases List.mem_append_cons_self hload
  have hnodup : ((((front.map (·.1)) ++ path :: rest.map (·.1)).filterMap fun place =>
      (Definition.load Yaml.readDatabaseConfig setting.files setting.root place).toOption).map
        (·.name)).Nodup := by
    have hsplit := hindexes.paths
    rw [List.map_append, List.map_cons] at hsplit
    rw [hsplit]
    exact hnames
  have hothers : ∀ pair ∈ front ++ rest, Tracks setting base later.view pair := by
    intro pair hpair
    have hold : Tracks setting base session.view pair := by
      apply hindexes.tracks
      simp only [List.mem_append, List.mem_cons] at hpair ⊢
      tauto
    have hmem : pair.1 ∈ front.map (·.1) ++ rest.map (·.1) := by
      rw [← List.map_append]
      exact List.mem_map_of_mem hpair
    refine hold.agreesBut hputs.others fun other hother => ?_
    exact ne_of_nodup_filterMap hnodup (congrArg Except.toOption hload) hmem
      (congrArg Except.toOption hother)
  constructor
  case paths => exact hindexes.paths_replace next
  case tracks =>
    intro pair hpair
    rcases List.mem_append.mp hpair with hfront | hback
    · exact hothers pair (List.mem_append_left _ hfront)
    · rcases List.mem_cons.mp hback with rfl | hrest
      · rw [Tracks, hload]
        simp only
        rw [Catalog.entryOf?_database.mp hputs.self]
        exact hstands
      · exact hothers pair (List.mem_append_right _ hrest)
  case others =>
    intro name hname
    have hne : name ≠ definition.name := by
      rintro rfl
      exact hname (List.mem_map_of_mem hdefinition)
    rw [hputs.others.find?_database (Or.inr hne)]
    exact hindexes.others name hname
  case nodes => exact hputs.others.nodes_eq.trans hindexes.nodes
  case version => exact hputs.others.version.trans hindexes.version
  case queries => exact hputs.others.queries.trans hindexes.queries

theorem Indexes.step (workspace : Workspace σ) (hnames : (setting.databases.map (·.name)).Nodup)
    (hfiles : workspace.environment.files = setting.files)
    (hflushed : workspace.session.pending = [])
    (hindexes : Indexes setting base (front ++ (path, task) :: rest) workspace.session.view) :
    (task.step setting.root workspace).2.session.pending = [] ∧
      Indexes setting base (front ++ (path, (task.step setting.root workspace).1) :: rest)
        (task.step setting.root workspace).2.session.view := by
  have htracks := hindexes.tracks (path, task) (by simp)
  cases hload : Definition.load Yaml.readDatabaseConfig setting.files setting.root path with
  | error error =>
      have hidles := htracks.idles hload
      rw [← hfiles] at hload hidles
      obtain ⟨hidles, hsame⟩ := hidles.step hload
      rw [hfiles] at hload hidles
      rw [hsame]
      exact ⟨hflushed, hindexes.idle hload hidles⟩
  | ok definition =>
      have hstands := htracks.stands hload
      rw [← hfiles] at hload
      obtain ⟨entry, hstands, hputs⟩ := hstands.step hload hflushed rfl
      rw [hfiles] at hload
      exact ⟨hputs.flushed, hindexes.put hnames hload hstands hputs⟩

end

/-! ## Nodes being compiled -/

/-- How far a run has come that compiles nodes, in terms of what is known of their columns. -/
structure Compiles (setting : CompileSetting σ γ) (forecast : Forecast σ) (base : Catalog)
    (databases : KeyMap String Database) (phase : Schedule.Phase) (schedule : Schedule)
    (tasks : String → NodeTask σ) (session : Session) : Prop where
  run : ∃ events,
    Schedule.Run (.ofDefinitions setting.extract setting.nodes) phase events schedule ∧
      ∀ definition result, .ended definition result ∈ events →
        tasks definition.name = .done result
  unstarted : ∀ name, name ∉ schedule.startedNames → tasks name = .ready
  stands : ∀ definition ∈ setting.nodes,
    NodeTask.Stands forecast databases definition
      (base.nodes.find? definition.name) (tasks definition.name)
      (session.view.nodes.find? definition.name)
  others : ∀ name, name ∉ setting.nodes.map (·.name) →
    session.view.nodes.find? name = base.nodes.find? name
  indexed : ∀ name, Becomes (DatabaseTask.Makes setting.databases (base.databases.find? name) name)
    (base.databases.find? name) (session.view.databases.find? name)
  snapshot : databases = session.databasesByName
  version : session.view.version = base.version
  queries : session.view.queries = base.queries

/-- Each definition that loads has a task. -/
theorem Indexes.exists_stands {tasks : List (Path × DatabaseTask)} {view : Catalog}
    (hindexes : Indexes setting base tasks view) {definition : Definition DatabaseConfig}
    (hmem : definition ∈ setting.databases) :
    ∃ pair ∈ tasks,
      Definition.load Yaml.readDatabaseConfig setting.files setting.root pair.1 = .ok definition ∧
      DatabaseTask.Stands definition (base.databases.find? definition.name) pair.2
        (view.databases.find? definition.name) := by
  obtain ⟨path, hpath, hload⟩ := List.mem_filterMap.mp hmem
  rw [← hindexes.paths] at hpath
  obtain ⟨pair, hpair, rfl⟩ := List.mem_map.mp hpath
  cases hloaded : Definition.load Yaml.readDatabaseConfig setting.files setting.root pair.1 with
  | error error =>
      rw [hloaded] at hload
      cases hload
  | ok found =>
      rw [hloaded] at hload
      cases hload
      exact ⟨pair, hpair, hloaded, (hindexes.tracks pair hpair).stands hloaded⟩

/-- When all databases are indexed, each has become what its definition makes of it. -/
theorem Indexes.becomes {tasks : List (Path × DatabaseTask)} {view : Catalog}
    (hnames : (setting.databases.map (·.name)).Nodup)
    (hindexes : Indexes setting base tasks view)
    (hdone : ∀ pair ∈ tasks, ∃ result, pair.2 = .done result) (name : String) :
    Becomes (DatabaseTask.Makes setting.databases (base.databases.find? name) name)
      (base.databases.find? name) (view.databases.find? name) := by
  by_cases hname : name ∈ setting.databases.map (·.name)
  · obtain ⟨definition, hdefinition, rfl⟩ := List.mem_map.mp hname
    obtain ⟨pair, hpair, -, hstands⟩ := hindexes.exists_stands hdefinition
    obtain ⟨result, hresult⟩ := hdone pair hpair
    rw [hresult] at hstands
    generalize hstored : base.databases.find? definition.name = stored at hstands ⊢
    generalize view.databases.find? definition.name = entry at hstands ⊢
    cases hstands with
    | @kept database hfound hcurrent =>
        refine .left ?_
        rintro record ⟨other, hother, hsame, hold, -⟩
        obtain rfl := List.inj_on_of_nodup_map hnames hother hdefinition hsame
        exact hold _ (by rw [hfound]; rfl) hcurrent
    | made hold id now => exact .made ⟨definition, hdefinition, rfl, hold, rfl⟩ id now
  · rw [hindexes.others name hname]
    refine .left ?_
    rintro record ⟨definition, hdefinition, rfl, -⟩
    exact hname (List.mem_map_of_mem hdefinition)

theorem Indexes.compiles {tasks : List (Path × DatabaseTask)} {session : Session}
    (hnames : (setting.databases.map (·.name)).Nodup)
    (hindexes : Indexes setting base tasks session.view)
    (hdone : ∀ pair ∈ tasks, ∃ result, pair.2 = .done result) :
    Compiles setting forecast base session.databasesByName .looking
      (.ofDefinitions setting.extract setting.nodes) (fun _ => .ready) session where
  run := ⟨[], .begin, by simp⟩
  unstarted := fun _ _ => rfl
  stands := by
    intro definition _
    rw [hindexes.nodes]
    exact .ready
  others := fun _ _ => by rw [hindexes.nodes]
  indexed := hindexes.becomes hnames hdone
  snapshot := rfl
  version := hindexes.version
  queries := hindexes.queries

section

variable {databases : KeyMap String Database} {phase : Schedule.Phase} {schedule : Schedule}
  {tasks : String → NodeTask σ} {session : Session}

theorem Compiles.start
    (hcompiles : Compiles setting forecast base databases .looking schedule tasks session)
    (hopen : ¬ schedule.IsOver) :
    Compiles setting forecast base databases .waiting schedule.start tasks session := by
  obtain ⟨events, hrun, hended⟩ := hcompiles.run
  refine { hcompiles with run := ⟨_, hrun.start hopen, ?_⟩, unstarted := ?_ }
  · intro definition result hmem
    apply hended
    simpa using hmem
  · intro name hname
    apply hcompiles.unstarted
    rw [Schedule.startedNames_start] at hname
    exact fun hstarted => hname (List.mem_append_left _ hstarted)

theorem Compiles.complete {definition : NodeDefinition} {result : Except CompileError Node}
    (hcompiles : Compiles setting forecast base databases .waiting schedule tasks session)
    (hflight : definition ∈ schedule.inFlight) (hdone : tasks definition.name = .done result) :
    Compiles setting forecast base databases .looking (schedule.complete definition result)
      tasks session := by
  obtain ⟨events, hrun, hended⟩ := hcompiles.run
  refine { hcompiles with run := ⟨_, hrun.complete hflight result, ?_⟩ }
  intro other outcome hmem
  rcases List.mem_append.mp hmem with hold | hnew
  · exact hended other outcome hold
  · cases List.mem_singleton.mp hnew
    exact hdone

/-- A definition that is in flight is among those that were loaded, and it was started. -/
theorem Compiles.mem_of_inFlight {definition : NodeDefinition}
    (hnames : (setting.nodes.map (·.name)).Nodup)
    (hcompiles : Compiles setting forecast base databases phase schedule tasks session)
    (hflight : definition ∈ schedule.inFlight) :
    definition ∈ setting.nodes ∧ definition.name ∈ schedule.startedNames := by
  obtain ⟨events, hrun, -⟩ := hcompiles.run
  have hstarted := (Schedule.mem_inFlight.mp hflight).1
  exact ⟨(hrun.consistent hnames).started_mem definition hstarted, List.mem_map_of_mem hstarted⟩

/-- A node goes on, and its entry is put. The other definitions have other names. -/
theorem Compiles.put {later : Session} {definition : NodeDefinition} {next : NodeTask σ}
    {entry : Option Node} (hnames : (setting.nodes.map (·.name)).Nodup)
    (hcompiles : Compiles setting forecast base databases .waiting schedule tasks session)
    (hflight : definition ∈ schedule.inFlight)
    (hstands : NodeTask.Stands forecast databases definition (base.nodes.find? definition.name)
      next entry)
    (hputs : session.Puts .node definition.name (entry.map .node) later) :
    Compiles setting forecast base databases .waiting schedule
      (Function.update tasks definition.name next) later := by
  obtain ⟨hmem, hstarted⟩ := hcompiles.mem_of_inFlight hnames hflight
  constructor
  case run =>
    obtain ⟨events, hrun, hended⟩ := hcompiles.run
    refine ⟨events, hrun, fun other result hother => ?_⟩
    have hne : other.name ≠ definition.name := by
      intro hsame
      have houtcome : (other, result) ∈ Schedule.outcomesIn events :=
        Schedule.mem_outcomesIn.mpr hother
      rw [← (hrun.consistent hnames).outcomes_eq] at houtcome
      exact (Schedule.mem_inFlight.mp hflight).2 (List.mem_map.mpr ⟨_, houtcome, hsame⟩)
    rw [Function.update_of_ne hne]
    exact hended other result hother
  case unstarted =>
    intro name hname
    have hne : name ≠ definition.name := by
      rintro rfl
      exact hname hstarted
    rw [Function.update_of_ne hne]
    exact hcompiles.unstarted name hname
  case stands =>
    intro other hother
    by_cases hsame : other.name = definition.name
    · obtain rfl := List.inj_on_of_nodup_map hnames hother hmem hsame
      rw [Function.update_self, Catalog.entryOf?_node.mp hputs.self]
      exact hstands
    · rw [Function.update_of_ne hsame, hputs.others.find?_node (Or.inr hsame)]
      exact hcompiles.stands other hother
  case others =>
    intro name hname
    have hne : name ≠ definition.name := by
      rintro rfl
      exact hname (List.mem_map_of_mem hmem)
    rw [hputs.others.find?_node (Or.inr hne)]
    exact hcompiles.others name hname
  case indexed =>
    rw [hputs.others.databases_eq]
    exact hcompiles.indexed
  case snapshot =>
    rw [Session.databasesByName, hputs.others.databases_eq]
    exact hcompiles.snapshot
  case version => exact hputs.others.version.trans hcompiles.version
  case queries => exact hputs.others.queries.trans hcompiles.queries

theorem Compiles.turn (workspace : Workspace σ) {definition : NodeDefinition}
    (hforecast : forecast.Holds setting.drivers setting.steady)
    (hnames : (setting.nodes.map (·.name)).Nodup)
    (hcompiles : Compiles setting forecast base databases .waiting schedule tasks
      workspace.session)
    (hflushed : workspace.session.pending = []) (hflight : definition ∈ schedule.inFlight)
    (clock : Nat) (hsteady : setting.steady workspace.environment) :
    let next := (tasks definition.name).step setting.drivers databases clock definition workspace
    next.2.session.pending = [] ∧
      Compiles setting forecast base databases .waiting schedule
        (Function.update tasks definition.name next.1) next.2.session := by
  intro next
  have hmem := (hcompiles.mem_of_inFlight hnames hflight).1
  obtain ⟨entry, hstands, hputs⟩ := NodeTask.Stands.step hforecast clock hsteady hflushed rfl
    (hcompiles.stands definition hmem)
  exact ⟨hputs.flushed, hcompiles.put hnames hflight hstands hputs⟩

end

/-! ## Runs -/

/-- What holds at every moment of a run. -/
structure Sound (setting : CompileSetting σ γ) (forecast : Forecast σ) (base : Catalog)
    (current : Compilation σ) : Prop where
  flushed : current.workspace.session.pending = []
  stage : match current.stage with
    | .indexing tasks => Indexes setting base tasks current.workspace.session.view
    | .compiling databases phase schedule tasks =>
        Compiles setting forecast base databases phase schedule tasks
          current.workspace.session

/-- What holds at every moment of a run whose probes have one answer each. -/
abbrev Informed (setting : CompileSetting σ γ) (answer : Answering) (base : Catalog) :
    Compilation σ → Prop :=
  Sound setting (.ofAnswers setting.steady answer) base

theorem sound_begin (setting : CompileSetting σ γ) (base : Catalog)
    (environment : Environment σ) :
    Sound setting forecast base (begin setting base environment) :=
  ⟨rfl, indexes_begin setting base⟩

variable {current next : Compilation σ}

theorem Step.sound (hdatabases : (setting.databases.map (·.name)).Nodup)
    (hnodes : (setting.nodes.map (·.name)).Nodup)
    (hforecast : forecast.Holds setting.drivers setting.steady)
    (hstep : Step setting current next) (hsound : Sound setting forecast base current) :
    Sound setting forecast base next := by
  obtain ⟨hflushed, hstage⟩ := hsound
  cases hstep with
  | @index front rest path task hindexing environment hfiles _ hnext =>
      rw [hindexing] at hstage
      subst hnext
      obtain ⟨hafter, hindexes⟩ := Indexes.step ⟨current.workspace.session, environment⟩
        hdatabases hfiles hflushed hstage
      exact ⟨hafter, hindexes⟩
  | load hindexing hdone =>
      rw [hindexing] at hstage
      exact ⟨hflushed, hstage.compiles hdatabases hdone⟩
  | start hcompiling hopen =>
      rw [hcompiling] at hstage
      exact ⟨hflushed, hstage.start hopen⟩
  | @turn _ _ _ _ hcompiling hflight clock environment hsteady _ hnext =>
      rw [hcompiling] at hstage
      subst hnext
      obtain ⟨hafter, hcompiles⟩ := Compiles.turn ⟨current.workspace.session, environment⟩
        hforecast hnodes hstage hflushed hflight clock hsteady
      exact ⟨hafter, hcompiles⟩
  | complete hcompiling hflight hdone =>
      rw [hcompiling] at hstage
      exact ⟨hflushed, hstage.complete hflight hdone⟩

/-- By induction on the run. -/
theorem Run.sound (hdatabases : (setting.databases.map (·.name)).Nodup)
    (hnodes : (setting.nodes.map (·.name)).Nodup)
    (hforecast : forecast.Holds setting.drivers setting.steady)
    (hrun : Run setting current next) (hsound : Sound setting forecast base current) :
    Sound setting forecast base next := by
  induction hrun with
  | refl => exact hsound
  | tail _ hstep ih => exact hstep.sound hdatabases hnodes hforecast ih

end Compilation

end MetricCatalog
