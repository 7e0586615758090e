/-
# When entries are made

A run reads the clock for each entry it makes. If the clock does not go back
between two steps, and no driver puts it back, then all these readings lie
between the beginning of the run and its end.
-/

import MetricCatalog.Proofs.Compile.OneByOne

namespace MetricCatalog

variable {σ γ : Type}

/-! ## Drivers -/

/-- No driver puts the clock back. -/
structure Drivers.KeepTime (drivers : Drivers (Environment σ) γ) : Prop where
  connect : ∀ uri environment, environment.now ≤ (drivers.connect uri environment).2.now
  introspect : ∀ connection table schema environment,
    environment.now ≤ (drivers.introspect connection table schema environment).2.now
  finish : ∀ connection table schema environment later,
    later.now ≤ ((drivers.introspect connection table schema environment).1.finish later).2.now

namespace Reading

/-- The clock is not put back when the answer comes. -/
inductive KeepsTime : Reading (Environment σ) → Prop
  | settled (answer : Except CompileError (List Column)) : KeepsTime (.settled answer)
  | underway {due : Nat} {finish : Environment σ → Except CompileError (List Column) × Environment σ}
      (hfinish : ∀ environment, environment.now ≤ (finish environment).2.now) :
      KeepsTime (.underway due finish)

theorem KeepsTime.wake {reading : Reading (Environment σ)} (hkeeps : reading.KeepsTime)
    (clock : Nat) (environment : Environment σ) :
    (reading.wake clock environment).1.KeepsTime ∧
      environment.now ≤ (reading.wake clock environment).2.now := by
  cases hkeeps with
  | settled answer => exact ⟨.settled answer, Instant.le_refl _⟩
  | underway hfinish =>
      simp only [Reading.wake]
      split
      · exact ⟨.settled _, hfinish environment⟩
      · exact ⟨.underway hfinish, Instant.le_refl _⟩

/-- By induction on the readings. -/
theorem keepsTime_wakeAll {readings : List (Reading (Environment σ))}
    (hkeeps : ∀ reading ∈ readings, reading.KeepsTime) (clock : Nat) (environment : Environment σ) :
    (∀ reading ∈ (wakeAll clock readings environment).1, reading.KeepsTime) ∧
      environment.now ≤ (wakeAll clock readings environment).2.now := by
  induction readings generalizing environment with
  | nil => exact ⟨hkeeps, Instant.le_refl _⟩
  | cons reading rest ih =>
      obtain ⟨hfirst, hmiddle⟩ := (hkeeps reading List.mem_cons_self).wake clock environment
      obtain ⟨hrest, hafter⟩ :=
        ih (fun other hother => hkeeps other (List.mem_cons_of_mem _ hother))
          (reading.wake clock environment).2
      exact ⟨List.forall_mem_cons.mpr ⟨hfirst, hrest⟩, Instant.le_trans hmiddle hafter⟩

end Reading

namespace Drivers.KeepTime

variable {drivers : Drivers (Environment σ) γ}

theorem start (hdrivers : drivers.KeepTime) (clock : Nat) (database : Database)
    (representation : Representation) (environment : Environment σ) :
    (Reading.start drivers clock database representation environment).1.KeepsTime ∧
      environment.now ≤
        (Reading.start drivers clock database representation environment).2.now := by
  have hconnect := hdrivers.connect database.uri environment
  simp only [Reading.start]
  generalize drivers.connect database.uri environment = connected at hconnect ⊢
  obtain ⟨answer, middle⟩ := connected
  cases answer with
  | error error => exact ⟨.settled _, hconnect⟩
  | ok connection =>
      have hafter := Instant.le_trans hconnect
        (hdrivers.introspect connection representation.table representation.schema middle)
      have hfinish :=
        hdrivers.finish connection representation.table representation.schema middle
      simp only
      split
      · exact ⟨.settled _, Instant.le_trans hafter (hfinish _)⟩
      · exact ⟨.underway hfinish, hafter⟩

/-- By induction on the representations. -/
theorem startAll (hdrivers : drivers.KeepTime) (clock : Nat)
    (databases : KeyMap String Database) (representations : List Representation)
    (environment : Environment σ) :
    (∀ reading ∈ (Reading.startAll drivers clock databases representations environment).1,
      reading.KeepsTime) ∧
      environment.now ≤
        (Reading.startAll drivers clock databases representations environment).2.now := by
  induction representations generalizing environment with
  | nil => exact ⟨by simp [Reading.startAll], Instant.le_refl _⟩
  | cons representation rest ih =>
      simp only [Reading.startAll]
      cases databases.find? representation.database with
      | none => exact ih environment
      | some database =>
          obtain ⟨hfirst, hmiddle⟩ := hdrivers.start clock database representation environment
          obtain ⟨hrest, hafter⟩ := ih
            (Reading.start drivers clock database representation environment).2
          exact ⟨List.forall_mem_cons.mpr ⟨hfirst, hrest⟩, Instant.le_trans hmiddle hafter⟩

end Drivers.KeepTime

namespace Builtin

theorem now_connectEmbedded (path : EmbeddedPath) (environment : Surroundings) :
    (connectEmbedded path environment).2.now = environment.now := by
  cases path with
  | memory => rfl
  | file path =>
      simp only [connectEmbedded]
      split
      · rfl
      · rfl
      · split <;> rfl

theorem now_connect (kinds : List SourceKind) (uri : String) (environment : Surroundings) :
    (connect kinds uri environment).2.now = environment.now := by
  unfold connect
  split
  · rfl
  · split
    · rfl
    · rfl
    · exact now_connectEmbedded _ environment

theorem now_introspect (connection : Connection) (table : String) (schema : Option String)
    (environment : Surroundings) :
    (introspect connection table schema environment).2.now = environment.now := by
  cases connection with
  | scripted database =>
      simp only [introspect]
      split <;> rfl
  | memory | file => rfl

theorem now_finish (connection : Connection) (table : String) (schema : Option String)
    (environment later : Surroundings) :
    ((introspect connection table schema environment).1.finish later).2.now = later.now := by
  cases connection with
  | scripted database =>
      simp only [introspect]
      split <;> rfl
  | memory | file => rfl

/-- The drivers of the program leave the clock alone. -/
theorem drivers_keepTime (kinds : List SourceKind) : (drivers kinds).KeepTime where
  connect uri environment := by
    rw [drivers, now_connect]
    exact Instant.le_refl _
  introspect connection table schema environment := by
    rw [drivers, now_introspect]
    exact Instant.le_refl _
  finish connection table schema environment later := by
    rw [drivers, now_finish]
    exact Instant.le_refl _

end Builtin

namespace Forecast

/-- It is said of readings that they do not put the clock back. -/
def timely : Forecast σ := ⟨fun _ _ readings => ∀ reading ∈ readings, reading.KeepsTime, fun _ _ _ => True⟩

theorem timely_holds {drivers : Drivers (Environment σ) γ} (hdrivers : drivers.KeepTime)
    (steady : Environment σ → Prop) : timely.Holds drivers steady where
  start := fun clock databases found environment _ =>
    (hdrivers.startAll clock databases found environment).1
  wake := fun clock _ _ _ environment _ hgives =>
    (Reading.keepsTime_wakeAll hgives clock environment).1
  merge := fun _ _ _ _ _ _ => trivial

/-- Once the clock has come to a time, it never shows an earlier one. -/
theorem timely_keeps {drivers : Drivers (Environment σ) γ} (hdrivers : drivers.KeepTime)
    (time : Instant) : timely.Keeps drivers fun environment => time ≤ environment.now where
  start := fun clock databases found environment htime =>
    Instant.le_trans htime (hdrivers.startAll clock databases found environment).2
  wake := fun clock _ _ _ environment htime hgives =>
    Instant.le_trans htime (Reading.keepsTime_wakeAll hgives clock environment).2
  stamp := fun _ htime => ⟨Instant.le_trans htime (Instant.le_advance _ _), htime⟩

end Forecast

/-! ## Single tasks -/

/-- A time is neither before the first nor behind the last one. -/
def Instant.IsWithin (time first last : Instant) : Prop := first ≤ time ∧ time ≤ last

theorem Instant.IsWithin.mono {time first last later : Instant}
    (hwithin : time.IsWithin first last) (hlater : last ≤ later) : time.IsWithin first later :=
  ⟨hwithin.1, le_trans hwithin.2 hlater⟩

namespace DatabaseTask

variable {root path : Path} {workspace : Workspace σ} {definition : Definition DatabaseConfig}
  {stored entry : Option Database} {task : DatabaseTask}

theorem now_le_step (root : Path) (task : DatabaseTask) (workspace : Workspace σ) :
    workspace.environment.now ≤ (task.step root workspace).2.environment.now := by
  rcases environment_step root task workspace with hsame | hstamped
  · rw [hsame]
    exact Instant.le_refl _
  · rw [hstamped]
    exact Instant.le_advance _ _

/-- The step that ends with a new entry makes it at the time of the step. -/
theorem Stands.made_within (hold : definition.IsOutdated (stored.map (·.updatedAt)))
    (hflushed : workspace.session.pending = [])
    (hentry : workspace.session.view.databases.find? definition.name = entry)
    (hstands : Stands definition stored task entry) {made : Database}
    (hdone : (task.step root workspace).1 = .done (.ok made)) :
    task = .done (.ok made) ∨
      made.updatedAt.IsWithin workspace.environment.now
        (task.step root workspace).2.environment.now := by
  cases hstands with
  | found =>
      simp only [DatabaseTask.step] at hdone
      cases hname : Definition.nameOf root definition.path <;>
        cases hmodified : Definition.modifiedAt workspace.environment.files definition.path <;>
          simp [hname, hmodified, bind, Except.bind, pure, Except.pure] at hdone
  | dated =>
      have hfound : workspace.session.database? definition.name = stored := hentry
      simp only [DatabaseTask.step, hfound] at hdone
      cases stored with
      | none => cases hdone
      | some database =>
          simp only [if_neg (hold _ rfl)] at hdone
          cases hdone
  | outdated =>
      simp only [DatabaseTask.step] at hdone
      split at hdone <;> cases hdone
  | loaded =>
      obtain ⟨drops, -, hcases⟩ := replace_cases definition.name stored definition.config hflushed
      simp only [DatabaseTask.step] at hdone ⊢
      rcases hcases with ⟨database, session, -, hupdated, -, -, hreplace⟩ |
        ⟨error, next, -, -, hreplace⟩
      · rw [hreplace] at hdone ⊢
        cases hdone
        refine Or.inr ⟨?_, ?_⟩
        · rw [hupdated]
          exact Instant.le_refl _
        · rw [hupdated]
          exact Instant.le_advance _ _
      · rw [hreplace] at hdone
        cases hdone
  | kept | made => exact Or.inl hdone

end DatabaseTask

namespace NodeTask

variable {drivers : Drivers (Environment σ) γ} {databases : KeyMap String Database}
  {workspace : Workspace σ} {definition : NodeDefinition} {stored entry : Option Node}
  {task : NodeTask σ} {first : Instant}

theorem now_le_step (hdrivers : drivers.KeepTime)
    (hstands : Stands .timely databases definition stored task entry) (clock : Nat)
    (workspace : Workspace σ) :
    workspace.environment.now ≤
      (task.step drivers databases clock definition workspace).2.environment.now :=
  keeps_step (Forecast.timely_keeps hdrivers workspace.environment.now) hstands clock
    (Instant.le_refl _)

/-- A node that is made when the last answer is there is made at the time of the step. -/
theorem settle_within (hflushed : workspace.session.pending = [])
    (hfirst : first ≤ workspace.environment.now) {existing : Option Node}
    {found : List Representation} {readings : List (Reading (Environment σ))} {made : Node}
    (hdone : (settle definition existing found readings workspace).1 = .done (.ok made)) :
    made.updatedAt.IsWithin first
      (settle definition existing found readings workspace).2.environment.now := by
  rcases settle_cases definition existing found readings hflushed with
    hwait | ⟨node, session, -, hupdated, -, -, hmade⟩ | ⟨error, hfailed⟩
  · rw [hwait] at hdone
    cases hdone
  · rw [hmade] at hdone ⊢
    cases hdone
    rw [hupdated]
    exact ⟨hfirst, Instant.le_advance _ _⟩
  · rw [hfailed] at hdone
    cases hdone

/-- The step that ends with a new entry makes it at the time of the step. -/
theorem Stands.made_within (hdrivers : drivers.KeepTime)
    (hold : definition.IsOutdated (stored.map (·.updatedAt)))
    (hflushed : workspace.session.pending = [])
    (hentry : workspace.session.view.nodes.find? definition.name = entry) (clock : Nat)
    (hstands : Stands .timely databases definition stored task entry) {made : Node}
    (hdone : (task.step drivers databases clock definition workspace).1 = .done (.ok made)) :
    task = .done (.ok made) ∨
      made.updatedAt.IsWithin workspace.environment.now
        (task.step drivers databases clock definition workspace).2.environment.now := by
  cases hstands with
  | ready =>
      have hfound : workspace.session.node? definition.name = stored := hentry
      have hfilter := Definition.isOutdated_iff.mp hold
      simp only [NodeTask.step, hfound, hfilter] at hdone ⊢
      cases hfound : representations databases definition with
      | error error =>
          rw [hfound] at hdone
          cases hdone
      | ok found =>
          obtain ⟨session, hdropped, hdrop⟩ := Workspace.exists_drop stored Entry.node hflushed
            (Catalog.entryOf?_node.mpr hentry)
          simp only [DefinitionKind.drop] at hdrop
          simp only [hfound, startReading_eq, hdrop] at hdone ⊢
          exact Or.inr (settle_within hdropped.flushed
            (hdrivers.startAll clock databases found workspace.environment).2 hdone)
  | reading _ _ hgives =>
      simp only [NodeTask.step] at hdone ⊢
      obtain ⟨-, hafter⟩ := Reading.keepsTime_wakeAll hgives clock workspace.environment
      refine Or.inr (settle_within ?_ hafter hdone)
      exact hflushed
  | kept | made | refused => exact Or.inl hdone

end NodeTask

namespace Compilation

variable {setting : CompileSetting σ γ} {base : Catalog} {current next : Compilation σ}
  {first : Instant}

/-! ## Runs -/

/-- What the clock shows. -/
def now (current : Compilation σ) : Instant := current.workspace.environment.now

/-- A step of a run before which the clock does not go back. -/
inductive TimedStep (setting : CompileSetting σ γ) (current : Compilation σ) :
    Compilation σ → Prop
  | index {front rest : List (Path × DatabaseTask)} {path : Path} {task : DatabaseTask}
      (hstage : current.stage = .indexing (front ++ (path, task) :: rest))
      {environment : Environment σ} (htime : current.now ≤ environment.now)
      (hfiles : environment.files = setting.files) {next : DatabaseTask × Workspace σ}
      (hnext : task.step setting.root { current.workspace with environment := environment } =
        next) :
      TimedStep setting current ⟨.indexing (front ++ (path, next.1) :: rest), next.2⟩
  | load {tasks : List (Path × DatabaseTask)} (hstage : current.stage = .indexing tasks)
      (hdone : ∀ pair ∈ tasks, ∃ result, pair.2 = .done result) :
      TimedStep setting current
        ⟨.compiling current.workspace.session.databasesByName .looking
          (.ofDefinitions setting.extract setting.nodes) fun _ => .ready, current.workspace⟩
  | start {databases : KeyMap String Database} {schedule : Schedule}
      {tasks : String → NodeTask σ}
      (hstage : current.stage = .compiling databases .looking schedule tasks)
      (hopen : ¬ schedule.IsOver) :
      TimedStep setting current
        ⟨.compiling databases .waiting schedule.start tasks, current.workspace⟩
  | turn {databases : KeyMap String Database} {schedule : Schedule} {tasks : String → NodeTask σ}
      {definition : NodeDefinition}
      (hstage : current.stage = .compiling databases .waiting schedule tasks)
      (hflight : definition ∈ schedule.inFlight) (clock : Nat) {environment : Environment σ}
      (htime : current.now ≤ environment.now) (hsteady : setting.steady environment)
      {next : NodeTask σ × Workspace σ}
      (hnext : (tasks definition.name).step setting.drivers databases clock definition
        { current.workspace with environment := environment } = next) :
      TimedStep setting current
        ⟨.compiling databases .waiting schedule (Function.update tasks definition.name next.1),
          next.2⟩
  | complete {databases : KeyMap String Database} {schedule : Schedule}
      {tasks : String → NodeTask σ} {definition : NodeDefinition}
      {result : Except CompileError Node}
      (hstage : current.stage = .compiling databases .waiting schedule tasks)
      (hflight : definition ∈ schedule.inFlight) (hdone : tasks definition.name = .done result) :
      TimedStep setting current
        ⟨.compiling databases .looking (schedule.complete definition result) tasks,
          current.workspace⟩

/-- The runs in which the clock never goes back, from one state to another. -/
def TimedRun (setting : CompileSetting σ γ) : Compilation σ → Compilation σ → Prop :=
  Relation.ReflTransGen (TimedStep setting)

theorem TimedStep.step (hstep : TimedStep setting current next) : Step setting current next := by
  cases hstep with
  | index hstage _ hfiles hnext => exact .index hstage hfiles hnext
  | load hstage hdone => exact .load hstage hdone
  | start hstage hopen => exact .start hstage hopen
  | turn hstage hflight clock _ hsteady hnext => exact .turn hstage hflight clock hsteady hnext
  | complete hstage hflight hdone => exact .complete hstage hflight hdone

theorem TimedRun.run (hrun : TimedRun setting current next) : Run setting current next :=
  Relation.ReflTransGen.mono (fun _ _ hstep => hstep.step) _ _ hrun

/-- What was made so far in the place of entries that were out of date or missing has been made
since a certain time. -/
structure Timely (setting : CompileSetting σ γ) (base : Catalog) (first : Instant)
    (current : Compilation σ) : Prop where
  began : first ≤ current.now
  stage : match current.stage with
    | .indexing tasks => ∀ pair ∈ tasks, ∀ definition,
        Definition.load Yaml.readDatabaseConfig setting.files setting.root pair.1 =
          .ok definition →
        definition.IsOutdated ((base.databases.find? definition.name).map (·.updatedAt)) →
          ∀ made, pair.2 = .done (.ok made) → made.updatedAt.IsWithin first current.now
    | .compiling _ _ _ tasks =>
        (∀ definition ∈ setting.databases,
          definition.IsOutdated ((base.databases.find? definition.name).map (·.updatedAt)) →
            ∀ made, current.workspace.session.view.databases.find? definition.name = some made →
              made.updatedAt.IsWithin first current.now) ∧
        ∀ definition ∈ setting.nodes,
          definition.IsOutdated ((base.nodes.find? definition.name).map (·.updatedAt)) →
            ∀ made, tasks definition.name = .done (.ok made) →
              made.updatedAt.IsWithin first current.now

theorem timely_begin (setting : CompileSetting σ γ) (base : Catalog)
    (environment : Environment σ) :
    Timely setting base environment.now (begin setting base environment) where
  began := Instant.le_refl _
  stage := by
    intro pair hpair definition _ _ made hmade
    obtain ⟨path, -, rfl⟩ := List.mem_map.mp hpair
    cases hmade

/-- While databases are indexed, the task that goes on has ended before or makes its entry now. -/
theorem Timely.index {front rest : List (Path × DatabaseTask)} {path : Path} {task : DatabaseTask}
    {workspace : Workspace σ} {environment : Environment σ}
    (hsound : Sound setting .timely base
      ⟨.indexing (front ++ (path, task) :: rest), workspace⟩)
    (htimely : Timely setting base first ⟨.indexing (front ++ (path, task) :: rest), workspace⟩)
    (htime : workspace.environment.now ≤ environment.now) :
    let next := task.step setting.root { workspace with environment := environment }
    Timely setting base first ⟨.indexing (front ++ (path, next.1) :: rest), next.2⟩ := by
  intro next
  have hnow : environment.now ≤ next.2.environment.now :=
    DatabaseTask.now_le_step setting.root task { workspace with environment := environment }
  have hlater := Instant.le_trans htime hnow
  refine ⟨Instant.le_trans htimely.began hlater, ?_⟩
  intro pair hpair definition hload hold made hdone
  have hothers : pair ∈ front ++ (path, task) :: rest →
      made.updatedAt.IsWithin first next.2.environment.now := fun hmem =>
    (htimely.stage pair hmem definition hload hold made hdone).mono hlater
  rcases List.mem_append.mp hpair with hfront | hback
  · exact hothers (List.mem_append_left _ hfront)
  · rcases List.mem_cons.mp hback with rfl | hrest
    · have htrack := hsound.stage.tracks (path, task) (by simp)
      rw [Tracks, hload] at htrack
      let found : Workspace σ := { workspace with environment := environment }
      have hflushed : found.session.pending = [] := hsound.flushed
      rcases htrack.made_within hold hflushed rfl hdone with rfl | hwithin
      · exact (htimely.stage (path, .done (.ok made)) (by simp) definition hload hold made
          rfl).mono hlater
      · exact ⟨Instant.le_trans htimely.began (Instant.le_trans htime hwithin.1), hwithin.2⟩
    · exact hothers (List.mem_append_right _ (List.mem_cons_of_mem _ hrest))

/-- While nodes are compiled, the task that goes on has ended before or makes its entry now. -/
theorem Timely.turn (hnodes : (setting.nodes.map (·.name)).Nodup)
    (hdrivers : setting.drivers.KeepTime) {databases : KeyMap String Database}
    {schedule : Schedule} {tasks : String → NodeTask σ} {definition : NodeDefinition}
    {workspace : Workspace σ} {environment : Environment σ}
    (hsound : Sound setting .timely base
      ⟨.compiling databases .waiting schedule tasks, workspace⟩)
    (htimely : Timely setting base first
      ⟨.compiling databases .waiting schedule tasks, workspace⟩)
    (hflight : definition ∈ schedule.inFlight) (clock : Nat)
    (htime : workspace.environment.now ≤ environment.now) (hsteady : setting.steady environment) :
    let next := (tasks definition.name).step setting.drivers databases clock definition
      { workspace with environment := environment }
    Timely setting base first
      ⟨.compiling databases .waiting schedule (Function.update tasks definition.name next.1),
        next.2⟩ := by
  intro next
  let found : Workspace σ := { workspace with environment := environment }
  have hflushed : found.session.pending = [] := hsound.flushed
  have hmem := (hsound.stage.mem_of_inFlight hnodes hflight).1
  have hstands := hsound.stage.stands definition hmem
  have hnow : environment.now ≤ next.2.environment.now :=
    NodeTask.now_le_step hdrivers hstands clock found
  have hlater := Instant.le_trans htime hnow
  refine ⟨Instant.le_trans htimely.began hlater, ?_, ?_⟩
  · intro database hdatabase hold made hmade
    obtain ⟨entry, -, hputs⟩ := NodeTask.Stands.step (Forecast.timely_holds hdrivers setting.steady)
      clock hsteady hflushed rfl hstands
    have hview : next.2.session.view.databases = workspace.session.view.databases :=
      hputs.others.databases_eq
    simp only [hview] at hmade
    exact (htimely.stage.1 database hdatabase hold made hmade).mono hlater
  · intro other hother hold made hdone
    by_cases hsame : other.name = definition.name
    · obtain rfl := List.inj_on_of_nodup_map hnodes hother hmem hsame
      rw [Function.update_self] at hdone
      rcases hstands.made_within hdrivers hold hflushed rfl clock hdone with hbefore | hwithin
      · exact (htimely.stage.2 other hother hold made hbefore).mono hlater
      · exact ⟨Instant.le_trans htimely.began (Instant.le_trans htime hwithin.1), hwithin.2⟩
    · rw [Function.update_of_ne hsame] at hdone
      exact (htimely.stage.2 other hother hold made hdone).mono hlater

/-- Once all databases are indexed, what was made is in the catalog. -/
theorem Timely.load {tasks : List (Path × DatabaseTask)} {workspace : Workspace σ}
    (hsound : Sound setting .timely base ⟨.indexing tasks, workspace⟩)
    (htimely : Timely setting base first ⟨.indexing tasks, workspace⟩)
    (hdone : ∀ pair ∈ tasks, ∃ result, pair.2 = .done result) :
    Timely setting base first
      ⟨.compiling workspace.session.databasesByName .looking
        (.ofDefinitions setting.extract setting.nodes) fun _ => .ready, workspace⟩ := by
  refine ⟨htimely.began, ?_, fun _ _ _ _ hready => by cases hready⟩
  intro definition hdefinition hold made hmade
  obtain ⟨pair, hpair, hload, hstands⟩ := hsound.stage.exists_stands hdefinition
  obtain ⟨result, hresult⟩ := hdone pair hpair
  simp only at hmade
  rw [hresult, hmade] at hstands
  refine htimely.stage pair hpair definition hload hold made ?_
  rw [hresult]
  generalize base.databases.find? definition.name = stored at hstands hold
  generalize hentry : some made = entry at hstands
  cases hstands with
  | kept hstored hcurrent =>
      subst hstored
      exact absurd hcurrent (hold _ rfl)
  | made =>
      cases hentry
      rfl

theorem TimedStep.timely (hnodes : (setting.nodes.map (·.name)).Nodup)
    (hdrivers : setting.drivers.KeepTime) (hstep : TimedStep setting current next)
    (hsound : Sound setting .timely base current)
    (htimely : Timely setting base first current) : Timely setting base first next := by
  obtain ⟨stage, workspace⟩ := current
  cases hstep with
  | index hstage htime _ hnext =>
      cases hstage
      subst hnext
      exact htimely.index hsound htime
  | load hstage hdone =>
      cases hstage
      exact htimely.load hsound hdone
  | start hstage =>
      cases hstage
      exact ⟨htimely.began, htimely.stage⟩
  | turn hstage hflight clock htime hsteady hnext =>
      cases hstage
      subst hnext
      exact htimely.turn hnodes hdrivers hsound hflight clock htime hsteady
  | complete hstage =>
      cases hstage
      exact ⟨htimely.began, htimely.stage⟩

/-- By induction on the run. -/
theorem TimedRun.timely (hdatabases : (setting.databases.map (·.name)).Nodup)
    (hnodes : (setting.nodes.map (·.name)).Nodup) (hdrivers : setting.drivers.KeepTime)
    (hrun : TimedRun setting current next) (hsound : Sound setting .timely base current)
    (htimely : Timely setting base first current) : Timely setting base first next := by
  induction hrun with
  | refl => exact htimely
  | tail hbefore hstep ih =>
      refine hstep.timely hnodes hdrivers ?_ ih
      exact (TimedRun.run hbefore).sound hdatabases hnodes (Forecast.timely_holds hdrivers _) hsound

end Compilation

end MetricCatalog
