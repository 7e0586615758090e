/-
# How a definition comes on

The tasks of a compile run take a definition from its file into the catalog: it
is dated and read, held against the entry that is there, and the entry is kept
or made anew. Databases and nodes take these steps in a different order, and a
node waits for its columns in between. What matters for the catalog is the same
for both, and it is said here once: what is known of the definition before and
after a step, and what the step does to the session.
-/

import MetricCatalog.Compile.DatabaseTask
import MetricCatalog.Compile.NodeTask
import MetricCatalog.Proofs.Catalog.Entries
import MetricCatalog.Proofs.Catalog.World
import MetricCatalog.Proofs.Schedule.Task

namespace MetricCatalog

/-! ## What definitions say -/

/-- What a definition says and its entry repeats. -/
inductive Saying
  | database (uri : String) (description : Option String)
  | node (description expression : Option String) (representations : List Representation)

def DatabaseConfig.saying (config : DatabaseConfig) : Saying :=
  .database config.uri config.description

/-- The representations of a node as its definition names them. -/
def NodeConfig.representationsOf (config : NodeConfig) : List Representation :=
  config.representations.map fun (database, representation) =>
    ⟨database, representation.schema, representation.table⟩

def NodeConfig.saying (config : NodeConfig) : Saying :=
  .node config.description config.expression config.representationsOf

def Entry.saying : Entry → Saying
  | .database made => .database made.uri made.description
  | .node made => .node made.description made.expression made.representations

/-- What the definition of a kind at a path says. -/
def Definition.sayingOf (kind : DefinitionKind) (files : FileTree) (path : Path) :
    Except DefinitionError Saying :=
  match kind with
  | .database => (readConfig Yaml.readDatabaseConfig files path).map (·.saying)
  | .node => (readConfig Yaml.readNodeConfig files path).map (·.saying)

/-! ## Tasks -/

/-- How far a definition of a node has come: it is loaded first and then compiled. -/
inductive NodeStage (σ : Type)
  /-- It has been found. -/
  | found
  /-- Its name and the time of its last change are known. -/
  | dated (name : String) (modified : Instant)
  /-- It does not load. -/
  | unloaded (error : DefinitionError)
  /-- It has been loaded. -/
  | compiling (definition : NodeDefinition) (task : NodeTask σ)

/-- How far a definition has come. -/
inductive DefinitionTask (σ : Type)
  | database (task : DatabaseTask)
  | node (stage : NodeStage σ)

variable {σ γ : Type}

/-- The next step of a definition of a node. -/
def NodeStage.step (drivers : Drivers (Environment σ) γ) (root path : Path) (clock : Nat)
    (stage : NodeStage σ) (workspace : Workspace σ) : NodeStage σ × Workspace σ :=
  match stage with
  | found =>
      let dated : Except DefinitionError (NodeStage σ) := do
        let name ← Definition.nameOf root path
        let modified ← Definition.modifiedAt workspace.environment.files path
        return .dated name modified
      match dated with
      | .ok stage => (stage, workspace)
      | .error error => (.unloaded error, workspace)
  | dated name modified =>
      match Definition.readConfig Yaml.readNodeConfig workspace.environment.files path with
      | .ok config => (.compiling ⟨name, path, modified, config⟩ .ready, workspace)
      | .error error => (.unloaded error, workspace)
  | unloaded error => (.unloaded error, workspace)
  | compiling definition task =>
      let (task, workspace) :=
        task.step drivers workspace.session.view.databases clock definition workspace
      (.compiling definition task, workspace)

/-- The next step of a definition. -/
def DefinitionTask.step (drivers : Drivers (Environment σ) γ) (root path : Path) (clock : Nat)
    (task : DefinitionTask σ) (workspace : Workspace σ) : DefinitionTask σ × Workspace σ :=
  match task with
  | database task =>
      let (task, workspace) := task.step root workspace
      (.database task, workspace)
  | node stage =>
      let (stage, workspace) := stage.step drivers root path clock workspace
      (.node stage, workspace)

/-- A definition that has been found. -/
def DefinitionTask.ofPath (path : Path) : DefinitionKind → DefinitionTask σ
  | .database => .database (.found path)
  | .node => .node .found

/-- The first two steps, with nothing in between, load a definition. -/
theorem NodeStage.step_step_found (drivers : Drivers (Environment σ) γ) (root path : Path)
    (clock : Nat) (workspace : Workspace σ) :
    let dated := NodeStage.found.step drivers root path clock workspace
    (dated.1.step drivers root path clock dated.2) =
      match Definition.load Yaml.readNodeConfig workspace.environment.files root path with
      | .ok definition => (.compiling definition .ready, workspace)
      | .error error => (.unloaded error, workspace) := by
  simp only [step, Definition.load]
  cases Definition.nameOf root path with
  | error error => rfl
  | ok name =>
      cases Definition.modifiedAt workspace.environment.files path with
      | error error => rfl
      | ok modified =>
          simp only [pure, Except.pure, bind, Except.bind]
          cases Definition.readConfig Yaml.readNodeConfig workspace.environment.files path with
          | error error => rfl
          | ok config => rfl

/-! ## Progress -/

/-- What is known of a definition. -/
inductive Progress
  | found
  | dated (name : String) (modified : Instant)
  /-- Its entry is too old or missing, and what it says is not known yet. -/
  | outdated (name : String)
  /-- It has been read. Without a time it has been held against its entry already. -/
  | loaded (name : String) (modified : Option Instant) (saying : Saying)
  | ended (result : Except CompileError Entry)

namespace Progress

def name? : Progress → Option String
  | dated name _ | outdated name | loaded name _ _ => some name
  | found | ended _ => none

/-- The time against which an entry is still to be held. -/
def modified? : Progress → Option Instant
  | dated _ modified => some modified
  | loaded _ modified _ => modified
  | found | outdated _ | ended _ => none

def saying? : Progress → Option Saying
  | loaded _ _ saying => some saying
  | found | dated _ _ | outdated _ | ended _ => none

end Progress

def DatabaseTask.progress : DatabaseTask → Progress
  | found _ => .found
  | dated _ name modified => .dated name modified
  | outdated _ name _ => .outdated name
  | loaded name _ config => .loaded name none config.saying
  | done result => .ended (result.map .database)

def NodeStage.progress : NodeStage σ → Progress
  | found => .found
  | dated name modified => .dated name modified
  | unloaded error => .ended (.error (.definition error))
  | compiling definition .ready =>
      .loaded definition.name (some definition.modified) definition.config.saying
  | compiling definition (.reading ..) => .loaded definition.name none definition.config.saying
  | compiling _ (.done result) => .ended (result.map .node)

def DefinitionTask.progress : DefinitionTask σ → Progress
  | database task => task.progress
  | node stage => stage.progress

def DefinitionTask.kind : DefinitionTask σ → DefinitionKind
  | database _ => .database
  | node _ => .node

/-- What a task keeps of a definition is that of the path. -/
def DefinitionTask.IsAt (path : Path) : DefinitionTask σ → Prop
  | database (.found place) | database (.dated place _ _) | database (.outdated place _ _) =>
      place = path
  | node (.compiling definition (.reading _ representations _)) =>
      representations = definition.config.representationsOf
  | _ => True

/-- What a step does to a definition, and the changes it makes in the session. -/
inductive Moves (kind : DefinitionKind) (root path : Path) (before after : Workspace σ) :
    Progress → Progress → List Mutation → Prop
  | date {name : String} {modified : Instant} (hname : Definition.nameOf root path = .ok name)
      (hmodified : before.environment.files.modified path = .ok modified) :
      Moves kind root path before after .found (.dated name modified) []
  | pass {name : String} {modified : Instant} :
      Moves kind root path before after (.dated name modified) (.outdated name) []
  | read {progress : Progress} {name : String} {modified : Option Instant} {saying : Saying}
      (hname : progress.name? = some name) (hunread : progress.saying? = none)
      (hmodified : modified = progress.modified?)
      (hread : Definition.sayingOf kind before.environment.files path = .ok saying) :
      Moves kind root path before after progress (.loaded name modified saying) []
  | keep {progress : Progress} {name : String} {modified : Instant} {entry : Entry}
      (hname : progress.name? = some name) (hmodified : progress.modified? = some modified)
      (hfound : before.session.view.entryOf? kind name = some entry)
      (hcurrent : modified ≤ entry.updatedAt) :
      Moves kind root path before after progress (.ended (.ok entry)) []
  | start {name : String} {modified : Option Instant} {saying : Saying} {drops : List Mutation}
      (hdrops : ∀ mutation ∈ drops, mutation = kind.drop name) :
      Moves kind root path before after (.loaded name modified saying) (.loaded name none saying)
        drops
  | record {name : String} {modified : Option Instant} {saying : Saying} {drops : List Mutation}
      {entry : Entry} (hdrops : ∀ mutation ∈ drops, mutation = kind.drop name)
      (hkind : entry.kind = kind) (hname : entry.name = name) (hsaying : entry.saying = saying)
      (hclock : ¬ after.environment.now ≤ entry.updatedAt) :
      Moves kind root path before after (.loaded name modified saying) (.ended (.ok entry))
        (drops ++ [entry.create])
  | fail {progress : Progress} {error : CompileError} {drops : List Mutation}
      (hdrops : ∀ mutation ∈ drops, ∃ name, progress.name? = some name ∧ mutation = kind.drop name) :
      Moves kind root path before after progress (.ended (.error error)) drops
  | rest {progress : Progress} : Moves kind root path before after progress progress []

/-! ## Single changes -/

namespace Workspace

variable {workspace : Workspace σ}

theorem change_cases (hflushed : workspace.session.pending = []) (mutation : Mutation) :
    (∃ session, workspace.session.Makes [mutation] session ∧
      workspace.change mutation = (.ok (), { workspace with session := session })) ∨
    ∃ error, workspace.change mutation = (.error error, workspace) := by
  rcases (workspace.session.push mutation).flush_cases with
    ⟨view, happly, hflush⟩ | ⟨error, -, hflush⟩
  · refine Or.inl ⟨⟨view, [], workspace.session.log ++ [mutation]⟩, ⟨?_, rfl, rfl⟩, ?_⟩
    · rw [← happly, Session.push, hflushed]
      rfl
    · rw [change, hflush, Session.push, hflushed]
      rfl
  · refine Or.inr ⟨.store (.conflict error), ?_⟩
    rw [change, hflush, Session.push]
    obtain ⟨⟨view, pending, log⟩, environment⟩ := workspace
    cases hflushed
    rfl

/-- The workspace after an identifier and the time have been taken. -/
def stamped (workspace : Workspace σ) : Workspace σ := workspace.stamp.2.2

theorem files_stamped (workspace : Workspace σ) :
    workspace.stamped.environment.files = workspace.environment.files := rfl

end Workspace

theorem Instant.le_advance (instant : Instant) (nanoseconds : Nat) :
    instant ≤ instant.advance nanoseconds := by
  rw [le_iff, advance]
  simp only
  omega

theorem Instant.not_advance_le (instant : Instant) {nanoseconds : Nat} (hpos : 0 < nanoseconds) :
    ¬ instant.advance nanoseconds ≤ instant := by
  rw [le_iff, advance]
  simp only
  omega

/-! ## Single steps -/

theorem NodeTask.settle_cases (definition : NodeDefinition) (existing : Option Node)
    (representations : List Representation) (readings : List (Reading (Environment σ)))
    {workspace : Workspace σ} (hflushed : workspace.session.pending = []) :
    settle definition existing representations readings workspace =
        (.reading existing representations readings, workspace) ∨
      (∃ node session, node.name = definition.name ∧
        node.updatedAt = workspace.environment.now ∧
        Entry.saying (.node node) =
          .node definition.config.description definition.config.expression representations ∧
        workspace.session.Makes [.createNode node] session ∧
        settle definition existing representations readings workspace =
          (.done (.ok node), { workspace.stamped with session := session })) ∨
      ∃ error, settle definition existing representations readings workspace =
        (.done (.error error), workspace.stamped) := by
  unfold settle
  cases readings.mapM Reading.answer? with
  | none => exact Or.inl rfl
  | some answers =>
      refine Or.inr ?_
      have hstamped : workspace.stamped.session.pending = [] := hflushed
      simp only
      rcases Workspace.change_cases hstamped (.createNode (record definition existing
        representations (Column.mergeAll answers) workspace.stamp.1 workspace.stamp.2.1))
        with ⟨session, hmakes, hchange⟩ | ⟨error, hchange⟩
      · refine Or.inl ⟨_, session, rfl, rfl, rfl, hmakes, ?_⟩
        rw [Workspace.stamped] at hchange
        rw [hchange]
        rfl
      · refine Or.inr ⟨error, ?_⟩
        rw [Workspace.stamped] at hchange
        rw [hchange]
        rfl

/-- A step of a task: the changes it makes, and how the definition comes on. -/
structure Advances (root path : Path) (task : DefinitionTask σ) (workspace : Workspace σ)
    (changes : List Mutation) (next : DefinitionTask σ × Workspace σ) : Prop where
  makes : workspace.session.Makes changes next.2.session
  moves : Moves task.kind root path workspace next.2 task.progress next.1.progress changes
  kind : next.1.kind = task.kind
  isAt : next.1.IsAt path

/-- The entry that is there is dropped before a new one is made. -/
theorem Workspace.drop_cases {workspace : Workspace σ} (hflushed : workspace.session.pending = [])
    {α : Type} (existing : Option α) (mutation : Mutation) :
    (∃ drops session, (∀ other ∈ drops, other = mutation) ∧
      workspace.session.Makes drops session ∧
      existing.elim (.ok (), workspace) (fun _ => workspace.change mutation) =
        (.ok (), { workspace with session := session })) ∨
    ∃ error, existing.elim (.ok (), workspace) (fun _ => workspace.change mutation) =
      (.error error, workspace) := by
  cases existing with
  | none => exact Or.inl ⟨[], workspace.session, by simp, .refl hflushed, rfl⟩
  | some value =>
      rcases change_cases hflushed mutation with ⟨session, hmakes, hchange⟩ | ⟨error, hchange⟩
      · exact Or.inl ⟨[mutation], session, by simp, hmakes, hchange⟩
      · exact Or.inr ⟨error, hchange⟩

theorem DatabaseTask.replace_eq (name : String) (existing : Option Database)
    (config : DatabaseConfig) (workspace : Workspace σ) :
    replace name existing config workspace =
      match existing.elim (.ok (), workspace) (fun _ => workspace.change (.dropDatabase name)) with
      | (.error error, workspace) => (.error error, workspace)
      | (.ok (), workspace) =>
          let database := record name existing config workspace.stamp.1 workspace.stamp.2.1
          let (created, workspace) := workspace.stamped.change (.createDatabase database)
          (created.map fun _ => database, workspace) := by
  cases existing with
  | none => rfl
  | some found =>
      unfold replace
      simp only [Option.elim_some]
      generalize workspace.change (.dropDatabase name) = dropped
      obtain ⟨result, workspace⟩ := dropped
      cases result <;> rfl

theorem DatabaseTask.replace_cases (name : String) (existing : Option Database)
    (config : DatabaseConfig) {workspace : Workspace σ}
    (hflushed : workspace.session.pending = []) :
    ∃ drops, (∀ mutation ∈ drops, mutation = DefinitionKind.database.drop name) ∧
      ((∃ database session, database.name = name ∧
          database.updatedAt = workspace.environment.now ∧
          Entry.saying (.database database) = config.saying ∧
          workspace.session.Makes (drops ++ [.createDatabase database]) session ∧
          replace name existing config workspace =
            (.ok database, { workspace.stamped with session := session })) ∨
        ∃ error next, workspace.session.Makes drops next.session ∧
          (next.environment = workspace.environment ∨
            next.environment = workspace.stamped.environment) ∧
          replace name existing config workspace = (.error error, next)) := by
  rw [replace_eq]
  rcases Workspace.drop_cases hflushed existing (.dropDatabase name)
    with ⟨drops, session, hdrops, hmakes, hdrop⟩ | ⟨error, hdrop⟩
  · refine ⟨drops, hdrops, ?_⟩
    simp only [hdrop]
    have hstamped :
        (Workspace.stamped { workspace with session := session }).session.pending = [] :=
      hmakes.flushed
    generalize hdatabase : record name existing config _ _ = database
    rcases Workspace.change_cases hstamped (.createDatabase database)
      with ⟨last, hcreates, hchange⟩ | ⟨error, hchange⟩
    · rw [hchange]
      subst hdatabase
      exact Or.inl ⟨_, last, rfl, rfl, rfl, hmakes.trans hcreates, rfl⟩
    · rw [hchange]
      exact Or.inr ⟨error, Workspace.stamped { workspace with session := session }, hmakes,
        Or.inr rfl, rfl⟩
  · refine ⟨[], by simp, Or.inr ⟨error, workspace, .refl hflushed, Or.inl rfl, ?_⟩⟩
    rw [hdrop]

variable {root path : Path} {workspace : Workspace σ}

theorem Definition.modified_eq_ok {files : FileTree} {modified : Instant}
    (hmodified : modifiedAt files path = .ok modified) : files.modified path = .ok modified := by
  unfold modifiedAt at hmodified
  cases hfound : files.modified path with
  | error error =>
      rw [hfound] at hmodified
      cases hmodified
  | ok found =>
      rw [hfound] at hmodified
      exact congrArg _ (Except.ok.inj hmodified)

theorem DatabaseTask.step_advances {task : DatabaseTask}
    (hat : (DefinitionTask.database task : DefinitionTask σ).IsAt path)
    (hflushed : workspace.session.pending = []) :
    ∃ changes, Advances root path (.database task) workspace changes
      (.database (task.step root workspace).1, (task.step root workspace).2) := by
  have hquiet := Session.Makes.refl hflushed
  cases task with
  | found place =>
      obtain rfl := hat
      simp only [step]
      cases hname : Definition.nameOf root place with
      | error error => exact ⟨[], hquiet, .fail (by simp), rfl, trivial⟩
      | ok name =>
          cases hmodified : Definition.modifiedAt workspace.environment.files place with
          | error error => exact ⟨[], hquiet, .fail (by simp), rfl, trivial⟩
          | ok modified =>
              exact ⟨[], hquiet, .date hname (Definition.modified_eq_ok hmodified), rfl, rfl⟩
  | dated place name modified =>
      obtain rfl := hat
      simp only [step]
      cases hfound : workspace.session.database? name with
      | none => exact ⟨[], hquiet, .pass, rfl, rfl⟩
      | some existing =>
          simp only
          split
          · rename_i hcurrent
            exact ⟨[], hquiet, .keep rfl rfl (congrArg (Option.map Entry.database) hfound) hcurrent,
              rfl, trivial⟩
          · exact ⟨[], hquiet, .pass, rfl, rfl⟩
  | outdated place name existing =>
      obtain rfl := hat
      simp only [step]
      cases hread : Definition.readConfig Yaml.readDatabaseConfig workspace.environment.files
        place with
      | error error => exact ⟨[], hquiet, .fail (by simp), rfl, trivial⟩
      | ok config =>
          refine ⟨[], hquiet, .read rfl rfl rfl ?_, rfl, trivial⟩
          simp only [Definition.sayingOf, hread]
          rfl
  | loaded name existing config =>
      simp only [step]
      obtain ⟨drops, hdrops, hcases⟩ := replace_cases name existing config hflushed
      rcases hcases with
        ⟨database, session, hname, hupdated, hsaying, hmakes, hreplace⟩ |
          ⟨error, next, hmakes, -, hreplace⟩
      · rw [hreplace]
        refine ⟨_, hmakes, .record hdrops rfl hname hsaying ?_, rfl, trivial⟩
        show ¬ workspace.environment.now.advance Environment.tick ≤ database.updatedAt
        rw [hupdated]
        exact Instant.not_advance_le _ (by decide)
      · rw [hreplace]
        exact ⟨drops, hmakes, .fail fun mutation hmem => ⟨name, rfl, hdrops mutation hmem⟩, rfl,
          trivial⟩
  | done result => exact ⟨[], hquiet, .rest, rfl, trivial⟩

theorem NodeTask.representations_eq {databases : KeyMap String Database}
    {definition : NodeDefinition} {found : List Representation}
    (hfound : representations databases definition = .ok found) :
    found = definition.config.representationsOf := by
  have hall := forall₂_of_mapM_ok hfound
  rw [NodeConfig.representationsOf]
  generalize definition.config.representations = items at hall
  clear hfound
  induction hall with
  | nil => rfl
  | @cons item _ _ _ hitem _ ih =>
      obtain ⟨database, representation⟩ := item
      rw [List.map_cons, ← ih]
      simp only at hitem
      split at hitem
      · cases hitem
        rfl
      · cases hitem

/-- A node goes on when the answers have been asked for: it waits, or it is made. -/
theorem NodeTask.settle_advances {definition : NodeDefinition} {existing : Option Node}
    {representations : List Representation} (readings : List (Reading (Environment σ)))
    {task : NodeTask σ} {modified : Option Instant} {middle : Workspace σ} {drops : List Mutation}
    (hloaded : (NodeStage.compiling definition task).progress =
      .loaded definition.name modified definition.config.saying)
    (hdrops : ∀ mutation ∈ drops, mutation = DefinitionKind.node.drop definition.name)
    (hmakes : workspace.session.Makes drops middle.session)
    (hrepresentations : representations = definition.config.representationsOf) :
    ∃ changes, Advances root path (.node (.compiling definition task)) workspace changes
      (.node (.compiling definition
          (settle definition existing representations readings middle).1),
        (settle definition existing representations readings middle).2) := by
  have hprogress : (DefinitionTask.node (.compiling definition task)).progress =
      .loaded definition.name modified definition.config.saying := hloaded
  rcases settle_cases definition existing representations readings hmakes.flushed with
    hwait | ⟨node, session, hname, hupdated, hsaying, hcreates, hmade⟩ | ⟨error, hfailed⟩
  · rw [hwait]
    refine ⟨drops, hmakes, ?_, rfl, hrepresentations⟩
    rw [hprogress]
    exact .start hdrops
  · rw [hmade]
    refine ⟨_, hmakes.trans hcreates, ?_, rfl, trivial⟩
    rw [hprogress]
    refine .record hdrops rfl hname ?_ ?_
    · rw [hsaying, hrepresentations]
      rfl
    · show ¬ middle.environment.now.advance Environment.tick ≤ node.updatedAt
      rw [hupdated]
      exact Instant.not_advance_le _ (by decide)
  · rw [hfailed]
    refine ⟨drops, hmakes, ?_, rfl, trivial⟩
    rw [hprogress]
    exact .fail fun mutation hmem => ⟨definition.name, rfl, hdrops mutation hmem⟩

theorem NodeTask.startReading_eq (drivers : Drivers (Environment σ) γ)
    (databases : KeyMap String Database) (clock : Nat) (definition : NodeDefinition)
    (existing : Option Node) (representations : List Representation) (workspace : Workspace σ) :
    startReading drivers databases clock definition existing representations workspace =
      match existing.elim (.ok (), workspace)
        (fun _ => workspace.change (.dropNode definition.name)) with
      | (.error error, workspace) => (.done (.error error), workspace)
      | (.ok (), workspace) =>
          let (readings, environment) :=
            Reading.startAll drivers clock databases representations workspace.environment
          settle definition existing representations readings
            { workspace with environment := environment } := by
  cases existing with
  | none => rfl
  | some found =>
      unfold startReading
      simp only [Option.elim_some]
      generalize workspace.change (.dropNode definition.name) = dropped
      obtain ⟨result, workspace⟩ := dropped
      cases result <;> rfl

theorem NodeStage.ready_advances (drivers : Drivers (Environment σ) γ) (clock : Nat)
    (definition : NodeDefinition) (hflushed : workspace.session.pending = []) :
    ∃ changes, Advances root path (.node (.compiling definition .ready)) workspace changes
      (.node ((compiling definition .ready).step drivers root path clock workspace).1,
        ((compiling definition .ready).step drivers root path clock workspace).2) := by
  have hquiet := Session.Makes.refl hflushed
  simp only [step, NodeTask.step]
  cases hfound : (workspace.session.node? definition.name).filter
    fun node => definition.modified ≤ node.updatedAt with
  | some node =>
      obtain ⟨hnode, hcurrent⟩ := Option.filter_eq_some_iff.mp hfound
      exact ⟨[], hquiet, .keep rfl rfl (congrArg (Option.map Entry.node) hnode)
        (of_decide_eq_true hcurrent), rfl, trivial⟩
  | none =>
      simp only
      cases hrepresentations : NodeTask.representations workspace.session.view.databases definition
        with
      | error error => exact ⟨[], hquiet, .fail (by simp), rfl, trivial⟩
      | ok representations =>
          simp only [NodeTask.startReading_eq]
          rcases Workspace.drop_cases hflushed (workspace.session.node? definition.name)
            (.dropNode definition.name) with
            ⟨drops, session, hdrops, hmakes, hdrop⟩ | ⟨error, hdrop⟩
          · simp only [hdrop]
            exact NodeTask.settle_advances _ rfl hdrops hmakes
              (NodeTask.representations_eq hrepresentations)
          · simp only [hdrop]
            exact ⟨[], hquiet, .fail (by simp), rfl, trivial⟩

theorem NodeStage.reading_advances (drivers : Drivers (Environment σ) γ) (clock : Nat)
    {definition : NodeDefinition} {existing : Option Node} {representations : List Representation}
    (readings : List (Reading (Environment σ)))
    (hrepresentations : representations = definition.config.representationsOf)
    (hflushed : workspace.session.pending = []) :
    ∃ changes, Advances root path
      (.node (.compiling definition (.reading existing representations readings))) workspace changes
      (.node ((compiling definition (.reading existing representations readings)).step drivers root
          path clock workspace).1,
        ((compiling definition (.reading existing representations readings)).step drivers root path
          clock workspace).2) := by
  simp only [step, NodeTask.step]
  exact NodeTask.settle_advances _ rfl (by simp) (.refl hflushed) hrepresentations

theorem NodeStage.step_advances (drivers : Drivers (Environment σ) γ) (clock : Nat)
    {stage : NodeStage σ} (hat : (DefinitionTask.node stage).IsAt path)
    (hflushed : workspace.session.pending = []) :
    ∃ changes, Advances root path (.node stage) workspace changes
      (.node (stage.step drivers root path clock workspace).1,
        (stage.step drivers root path clock workspace).2) := by
  have hquiet := Session.Makes.refl hflushed
  cases stage with
  | found =>
      simp only [step]
      cases hname : Definition.nameOf root path with
      | error error => exact ⟨[], hquiet, .fail (by simp), rfl, trivial⟩
      | ok name =>
          cases hmodified : Definition.modifiedAt workspace.environment.files path with
          | error error => exact ⟨[], hquiet, .fail (by simp), rfl, trivial⟩
          | ok modified =>
              exact ⟨[], hquiet, .date hname (Definition.modified_eq_ok hmodified), rfl, trivial⟩
  | dated name modified =>
      simp only [step]
      cases hread : Definition.readConfig Yaml.readNodeConfig workspace.environment.files path with
      | error error => exact ⟨[], hquiet, .fail (by simp), rfl, trivial⟩
      | ok config =>
          refine ⟨[], hquiet, .read rfl rfl rfl ?_, rfl, trivial⟩
          simp only [Definition.sayingOf, hread]
          rfl
  | unloaded error => exact ⟨[], hquiet, .rest, rfl, trivial⟩
  | compiling definition task =>
      cases task with
      | ready => exact ready_advances drivers clock definition hflushed
      | reading existing representations readings =>
          exact reading_advances drivers clock readings hat hflushed
      | done result => exact ⟨[], hquiet, .rest, rfl, trivial⟩

theorem DefinitionTask.step_advances (drivers : Drivers (Environment σ) γ) (clock : Nat)
    {task : DefinitionTask σ} (hat : task.IsAt path) (hflushed : workspace.session.pending = []) :
    ∃ changes, Advances root path task workspace changes
      (task.step drivers root path clock workspace) := by
  cases task with
  | database task => exact DatabaseTask.step_advances hat hflushed
  | node stage => exact NodeStage.step_advances drivers clock hat hflushed

/-! ## What follows from a step -/

namespace Moves

variable {kind : DefinitionKind} {before after : Workspace σ} {progress next : Progress}
  {changes : List Mutation}

/-- A step has to do with one entry only. -/
theorem effectOn (hmoves : Moves kind root path before after progress next changes)
    {mutation : Mutation} (hmem : mutation ∈ changes) {other : DefinitionKind} {name : String}
    (heffect : mutation.effectOn other name ≠ none) :
    other = kind ∧ progress.name? = some name := by
  have hdropped : ∀ found, mutation = kind.drop found → other = kind ∧ name = found := by
    rintro found rfl
    rw [DefinitionKind.effectOn_drop] at heffect
    by_contra hne
    exact heffect (if_neg hne)
  cases hmoves with
  | date | pass | read | keep | rest => cases hmem
  | start hdrops =>
      obtain ⟨rfl, rfl⟩ := hdropped _ (hdrops mutation hmem)
      exact ⟨rfl, rfl⟩
  | fail hdrops =>
      obtain ⟨found, hfound, hdrop⟩ := hdrops mutation hmem
      obtain ⟨rfl, rfl⟩ := hdropped _ hdrop
      exact ⟨rfl, hfound⟩
  | @record _ _ _ drops entry hdrops hkind hname =>
      rcases List.mem_append.mp hmem with hdrop | hcreate
      · obtain ⟨rfl, rfl⟩ := hdropped _ (hdrops mutation hdrop)
        exact ⟨rfl, rfl⟩
      · rw [List.mem_singleton.mp hcreate, Entry.effectOn_create] at heffect
        have hboth : other = entry.kind ∧ name = entry.name := by
          by_contra hne
          exact heffect (if_neg hne)
        exact ⟨hboth.1.trans hkind, congrArg some (hname.symm.trans hboth.2.symm)⟩

/-- An entry is only made from what the definition was read to say. -/
theorem made (hmoves : Moves kind root path before after progress next changes)
    {mutation : Mutation} (hmem : mutation ∈ changes) {name : String} {entry : Entry}
    (heffect : mutation.effectOn kind name = some (some entry)) :
    next = .ended (.ok entry) ∧ progress.saying? = some entry.saying ∧
      ¬ after.environment.now ≤ entry.updatedAt := by
  have hdropped : ∀ found, mutation ≠ kind.drop found := by
    rintro found rfl
    rw [DefinitionKind.effectOn_drop] at heffect
    split at heffect <;> cases heffect
  cases hmoves with
  | date | pass | read | keep | rest => cases hmem
  | start hdrops => exact absurd (hdrops mutation hmem) (hdropped _)
  | fail hdrops =>
      obtain ⟨found, -, hdrop⟩ := hdrops mutation hmem
      exact absurd hdrop (hdropped found)
  | record hdrops hkind hname hsaying hclock =>
      rcases List.mem_append.mp hmem with hdrop | hcreate
      · exact absurd (hdrops mutation hdrop) (hdropped _)
      · rw [List.mem_singleton.mp hcreate, Entry.effectOn_create] at heffect
        split at heffect
        · cases heffect
          exact ⟨rfl, congrArg some hsaying.symm, hclock⟩
        · cases heffect

theorem name? (hmoves : Moves kind root path before after progress next changes) {name : String}
    (hname : next.name? = some name) :
    progress.name? = some name ∨ Definition.nameOf root path = .ok name := by
  cases hmoves with
  | date hfound =>
      cases hname
      exact Or.inr hfound
  | pass | start | rest => exact Or.inl hname
  | read hfound =>
      cases hname
      exact Or.inl hfound
  | keep | record | fail => cases hname

theorem modified? (hmoves : Moves kind root path before after progress next changes)
    {modified : Instant} (hmodified : next.modified? = some modified) :
    progress.modified? = some modified ∨
      before.environment.files.modified path = .ok modified := by
  cases hmoves with
  | date hname hfound =>
      cases hmodified
      exact Or.inr hfound
  | read hname hunread hsame =>
      rw [← hsame]
      exact Or.inl hmodified
  | rest => exact Or.inl hmodified
  | pass | start | keep | record | fail => cases hmodified

theorem saying? (hmoves : Moves kind root path before after progress next changes)
    {saying : Saying} (hsaying : next.saying? = some saying) :
    progress.saying? = some saying ∨
      Definition.sayingOf kind before.environment.files path = .ok saying := by
  cases hmoves with
  | read hname hunread hmodified hread =>
      cases hsaying
      exact Or.inr hread
  | start | rest => exact Or.inl hsaying
  | date | pass | keep | record | fail => cases hsaying

/-- A definition that ends well has ended before, or its entry is kept, or it is made. -/
theorem ended {entry : Entry}
    (hmoves : Moves kind root path before after progress (.ended (.ok entry)) changes) :
    (progress = .ended (.ok entry) ∧ changes = []) ∨
      (∃ name modified, progress.name? = some name ∧ progress.modified? = some modified ∧
        before.session.view.entryOf? kind name = some entry ∧ modified ≤ entry.updatedAt ∧
        changes = []) ∨
      ∃ name, progress.name? = some name ∧ progress.saying? = some entry.saying ∧
        ∀ stored, Entry.after kind name changes stored = some entry := by
  cases hmoves with
  | rest => exact Or.inl ⟨rfl, rfl⟩
  | keep hname hmodified hfound hcurrent =>
      exact Or.inr (Or.inl ⟨_, _, hname, hmodified, hfound, hcurrent, rfl⟩)
  | @record name _ _ drops _ hdrops hkind hname hsaying hclock =>
      refine Or.inr (Or.inr ⟨name, rfl, congrArg some hsaying.symm, fun stored => ?_⟩)
      rw [Entry.after_append, Entry.after, List.foldl_cons, Entry.effectOn_create,
        if_pos ⟨hkind.symm, hname.symm⟩]
      rfl

end Moves

end MetricCatalog
