/-
# Compiling while definitions are edited

Compile runs work on one store, one after another or side by side, and between
any two of their steps a definition may be edited. One definition is watched: it
is edited by writing its file, which takes on the time that the clock shows, and
the clock goes on. Whatever else happens leaves its file as it is.

The tasks of a run may take their steps in any order. What holds in all orders
holds in the one that a run takes.
-/

import Mathlib.Logic.Function.Basic
import MetricCatalog.Proofs.Compile.Progress
import MetricCatalog.Proofs.Files.Change
import MetricCatalog.Proofs.History

namespace MetricCatalog

variable {κ σ γ : Type}

/-- A file stays as it is, and the clock does not go back. -/
structure Spares (path : Path) (before after : Environment σ) : Prop where
  clock : before.now ≤ after.now
  modified : after.files.modified path = before.files.modified path
  text : after.files.readText path = before.files.readText path

theorem Spares.refl (path : Path) (environment : Environment σ) :
    Spares path environment environment := ⟨Instant.le_refl _, rfl, rfl⟩

/-- A run that compiles definitions. -/
structure CompileRun (σ : Type) where
  session : Session
  /-- The definitions that were found, and how far they have come. -/
  tasks : DefinitionKind → Path → Option (DefinitionTask σ)

namespace CompileRun

/-- The run when definitions of a kind have been found. -/
def find (run : CompileRun σ) (kind : DefinitionKind) (paths : List Path) : CompileRun σ :=
  let found (place : Path) : Option (DefinitionTask σ) :=
    if place ∈ paths then some (.ofPath place kind) else none
  { run with tasks := Function.update run.tasks kind found }

/-- The run when a definition has come on. -/
def goOn (run : CompileRun σ) (kind : DefinitionKind) (place : Path) (session : Session)
    (task : DefinitionTask σ) : CompileRun σ :=
  ⟨session, Function.update run.tasks kind (Function.update (run.tasks kind) place (some task))⟩

variable {run : CompileRun σ} {kind other : DefinitionKind} {place spot : Path}
  {task found : DefinitionTask σ}

theorem tasks_find_self {paths : List Path} (hmem : place ∈ paths) :
    (run.find kind paths).tasks kind place = some (.ofPath place kind) := by
  simp only [find, Function.update_self, if_pos hmem]

theorem tasks_find_of_ne {paths : List Path} (hne : other ≠ kind) :
    (run.find kind paths).tasks other = run.tasks other := by
  simp only [find, Function.update_of_ne hne]

theorem tasks_find_cases {paths : List Path}
    (hfound : (run.find kind paths).tasks other spot = some found) :
    (other = kind ∧ spot ∈ paths ∧ found = .ofPath spot kind) ∨
      run.tasks other spot = some found := by
  by_cases hkind : other = kind
  · subst hkind
    by_cases hmem : spot ∈ paths
    · rw [tasks_find_self hmem] at hfound
      exact Or.inl ⟨rfl, hmem, (Option.some.inj hfound).symm⟩
    · simp only [find, Function.update_self, if_neg hmem] at hfound
      cases hfound
  · rw [tasks_find_of_ne hkind] at hfound
    exact Or.inr hfound

theorem tasks_goOn_self (run : CompileRun σ) (kind : DefinitionKind) (place : Path)
    (session : Session) (task : DefinitionTask σ) :
    (run.goOn kind place session task).tasks kind place = some task := by
  simp only [goOn, Function.update_self]

theorem tasks_goOn_of_ne {session : Session} (hne : ¬ (other = kind ∧ spot = place)) :
    (run.goOn kind place session task).tasks other spot = run.tasks other spot := by
  simp only [goOn]
  by_cases hkind : other = kind
  · subst hkind
    rw [Function.update_self, Function.update_of_ne fun hspot => hne ⟨rfl, hspot⟩]
  · rw [Function.update_of_ne hkind]

end CompileRun

/-- Where a run stands. -/
inductive CompileStage (σ : Type)
  | absent
  | underway (run : CompileRun σ)
  | over

/-- A store, its surroundings, and all runs on it. -/
structure Upkeep (κ σ : Type) where
  environment : Environment σ
  store : Store
  stage : κ → CompileStage σ

namespace Upkeep

/-- Nothing has been compiled yet. -/
def idle (environment : Environment σ) (store : Store) : Upkeep κ σ :=
  ⟨environment, store, fun _ => .absent⟩

/-- Something that happens while definitions are kept up. -/
inductive Event (κ : Type)
  /-- The definition that is watched was edited. -/
  | edited
  /-- Something happened that has to do neither with it nor with a run. -/
  | elsewhere
  | began (k : κ)
  /-- A run has looked for definitions of a kind. -/
  | found (k : κ) (kind : DefinitionKind) (paths : List Path)
  /-- A definition has come on in a run, which has made some changes. -/
  | stepped (k : κ) (kind : DefinitionKind) (place : Path) (before after : Progress)
      (changes : List Mutation)
  /-- A run has committed its log. -/
  | committed (k : κ) (log : List Mutation) (result : Except StoreError Catalog)

/-- The run of an event. -/
def Event.run? : Event κ → Option κ
  | edited | elsewhere => none
  | began k | found k _ _ | stepped k _ _ _ _ _ | committed k _ _ => some k

variable [DecidableEq κ]

/-- The state after a run has come to another stage. -/
def put (upkeep : Upkeep κ σ) (k : κ) (stage : CompileStage σ) : Upkeep κ σ :=
  { upkeep with stage := Function.update upkeep.stage k stage }

@[simp] theorem store_put (upkeep : Upkeep κ σ) (k : κ) (stage : CompileStage σ) :
    (upkeep.put k stage).store = upkeep.store := rfl

@[simp] theorem stage_put_self (upkeep : Upkeep κ σ) (k : κ) (stage : CompileStage σ) :
    (upkeep.put k stage).stage k = stage := Function.update_self ..

theorem stage_put_of_ne (upkeep : Upkeep κ σ) {j k : κ} (hne : j ≠ k) (stage : CompileStage σ) :
    (upkeep.put k stage).stage j = upkeep.stage j := Function.update_of_ne hne ..

/-- A single step, with the definition at a path being watched. -/
inductive Step (drivers : Drivers (Environment σ) γ) (root path : Path) (upkeep : Upkeep κ σ) :
    Event κ → Upkeep κ σ → Prop
  | edit {text : String} {files : FileTree}
      (hwrite : upkeep.environment.files.write path (.text text) upkeep.environment.now =
        .ok files) :
      Step drivers root path upkeep .edited { upkeep with
        environment := { upkeep.environment.readClock.2 with files := files } }
  | elsewhere {environment : Environment σ} {store : Store}
      (hspares : Spares path upkeep.environment environment)
      (hentries : ∀ kind name,
        store.committed.entryOf? kind name = upkeep.store.committed.entryOf? kind name) :
      Step drivers root path upkeep .elsewhere
        { upkeep with environment := environment, store := store }
  | begin {k : κ} (habsent : upkeep.stage k = .absent) :
      Step drivers root path upkeep (.began k)
        (upkeep.put k (.underway ⟨upkeep.store.begin, fun _ _ => none⟩))
  | search {k : κ} {run : CompileRun σ} (hrun : upkeep.stage k = .underway run)
      (kind : DefinitionKind) {paths : List Path}
      (hpaths : paths = Definition.discover upkeep.environment.files root kind)
      (hnew : ∀ place, run.tasks kind place = none) :
      Step drivers root path upkeep (.found k kind paths)
        (upkeep.put k (.underway (run.find kind paths)))
  | work {k : κ} {run : CompileRun σ} {kind : DefinitionKind} {place : Path}
      {task next : DefinitionTask σ} {workspace : Workspace σ} {changes : List Mutation}
      (hrun : upkeep.stage k = .underway run) (htask : run.tasks kind place = some task)
      (clock : Nat)
      (hstep : task.step drivers root place clock ⟨run.session, upkeep.environment⟩ =
        (next, workspace))
      (hlog : workspace.session.log = run.session.log ++ changes)
      (hspares : Spares path upkeep.environment workspace.environment) :
      Step drivers root path upkeep
        (.stepped k kind place task.progress next.progress changes)
        ({ upkeep with environment := workspace.environment }.put k
          (.underway (run.goOn kind place workspace.session next)))
  | commit {k : κ} {run : CompileRun σ} {result : Except StoreError Catalog} {store : Store}
      {environment : Environment σ} (hrun : upkeep.stage k = .underway run)
      (hcommit : upkeep.store.commit run.session upkeep.environment =
        (result, store, environment))
      (hspares : Spares path upkeep.environment environment) :
      Step drivers root path upkeep (.committed k run.session.log result)
        ({ upkeep with environment := environment, store := store }.put k .over)

/-- The runs from a first state: what happened, and the state it led to. -/
inductive Run (drivers : Drivers (Environment σ) γ) (root path : Path) (first : Upkeep κ σ) :
    List (Event κ) → Upkeep κ σ → Prop
  | nil : Run drivers root path first [] first
  | step {events : List (Event κ)} {upkeep next : Upkeep κ σ} {event : Event κ}
      (prior : Run drivers root path first events upkeep)
      (hstep : Step drivers root path upkeep event next) :
      Run drivers root path first (events ++ [event]) next

/-! ## A run with one definition -/

/-- The definition of a node is the only one, and it loads. -/
structure LoadsOnly (root : Path) (files : FileTree) (definition : NodeDefinition) : Prop where
  discover : Definition.discover files root .node = [definition.path]
  nameOf : Definition.nameOf root definition.path = .ok definition.name
  modifiedAt : Definition.modifiedAt files definition.path = .ok definition.modified
  readConfig : Definition.readConfig Yaml.readNodeConfig files definition.path =
    .ok definition.config

/-- What happens when a run finds one node and loads its definition. -/
def loading (k : κ) (definition : NodeDefinition) : List (Event κ) :=
  let dated : Progress := .dated definition.name definition.modified
  let loaded : Progress :=
    .loaded definition.name (some definition.modified) definition.config.saying
  [.found k .node [definition.path], .stepped k .node definition.path .found dated [],
    .stepped k .node definition.path dated loaded []]

variable {drivers : Drivers (Environment σ) γ} {root path : Path} {first upkeep : Upkeep κ σ}
  {events : List (Event κ)} {k : κ} {environment : Environment σ}

theorem Run.load {definition : NodeDefinition} (hrun : Run drivers root path first events upkeep)
    (habsent : upkeep.stage k = .absent)
    (hloads : LoadsOnly root upkeep.environment.files definition) :
    ∃ tasks, tasks .node definition.path = some (.node (.compiling definition .ready)) ∧
      Run drivers root path first (events ++ .began k :: loading k definition)
        (upkeep.put k (.underway ⟨upkeep.store.begin, tasks⟩)) := by
  have hquiet := Spares.refl path upkeep.environment
  have hdate : (DefinitionTask.ofPath definition.path .node).step drivers root definition.path 0
      ⟨upkeep.store.begin, upkeep.environment⟩ =
        (.node (.dated definition.name definition.modified),
          ⟨upkeep.store.begin, upkeep.environment⟩) := by
    simp only [DefinitionTask.ofPath, DefinitionTask.step, NodeStage.step, hloads.nameOf,
      hloads.modifiedAt]
    rfl
  have hcompile : (DefinitionTask.node (.dated definition.name definition.modified)).step drivers
      root definition.path 0 ⟨upkeep.store.begin, upkeep.environment⟩ =
        (.node (.compiling definition .ready), ⟨upkeep.store.begin, upkeep.environment⟩) := by
    simp only [DefinitionTask.step, NodeStage.step, hloads.readConfig]
  have hbegan := hrun.step (.begin habsent)
  have hsearched := hbegan.step
    (.search (stage_put_self ..) .node hloads.discover.symm fun _ => rfl)
  have hdated := hsearched.step (.work (stage_put_self ..)
    (CompileRun.tasks_find_self (List.mem_singleton_self _)) 0 hdate (List.append_nil _).symm
    hquiet)
  have hloaded := hdated.step (.work (stage_put_self ..)
    (CompileRun.tasks_goOn_self ..) 0 hcompile (List.append_nil _).symm hquiet)
  simp only [put, Function.update_idem, List.append_assoc] at hloaded
  refine ⟨_, ?_, hloaded⟩
  rw [Function.update_self, Function.update_self]

theorem Run.edit {stage : CompileStage σ} {text : String} {files : FileTree}
    (hrun : Run drivers root path first events (upkeep.put k stage))
    (hwrite : upkeep.environment.files.write path (.text text) upkeep.environment.now = .ok files)
    (hnext : { upkeep.environment.readClock.2 with files := files } = environment) :
    Run drivers root path first (events ++ [.edited])
      ({ upkeep with environment := environment }.put k stage) := by
  subst hnext
  exact hrun.step (.edit hwrite)

/-- A definition comes on, and then the run commits. -/
theorem Run.finish {run : CompileRun σ} {kind : DefinitionKind} {place : Path}
    {task next : DefinitionTask σ} {session : Session} {middle : Environment σ} {store : Store}
    {result : Except StoreError Catalog}
    (hrun : Run drivers root path first events (upkeep.put k (.underway run)))
    (htask : run.tasks kind place = some task) (hat : task.IsAt place)
    (hflushed : run.session.pending = [])
    (hstep : task.step drivers root place 0 ⟨run.session, upkeep.environment⟩ =
      (next, ⟨session, middle⟩))
    (hspares : Spares path upkeep.environment middle)
    (hcommit : upkeep.store.commit session middle = (result, store, environment))
    (hafter : Spares path middle environment) :
    ∃ changes, Run drivers root path first
      (events ++ [.stepped k kind place task.progress next.progress changes] ++
        [.committed k session.log result])
      ({ upkeep with environment := environment, store := store }.put k .over) := by
  obtain ⟨changes, hadvances⟩ : ∃ changes, Advances root place task
      ⟨run.session, upkeep.environment⟩ changes (next, ⟨session, middle⟩) := by
    rw [← hstep]
    exact DefinitionTask.step_advances drivers 0 hat hflushed
  have hworked := hrun.step
    (.work (stage_put_self ..) htask 0 hstep hadvances.makes.log hspares)
  have hcommitted := hworked.step (.commit (stage_put_self ..) hcommit hafter)
  simp only [put, Function.update_idem] at hcommitted
  exact ⟨changes, hcommitted⟩

end Upkeep

end MetricCatalog
