/-
# One definition at a time

The plainest way to compile a repository takes one definition after another from
its first step to its last. It may do so in any order in which the nodes come
behind those they depend on, and such an order leads to an end for every
repository. All of them are runs.
-/

import Mathlib.Logic.Function.Iterate
import MetricCatalog.Proofs.Compile.Interleaving

namespace MetricCatalog

variable {σ γ : Type}

/-! ## Databases to the end -/

namespace DatabaseTask

/-- A task goes on. -/
def onward (root : Path) (current : DatabaseTask × Workspace σ) : DatabaseTask × Workspace σ :=
  current.1.step root current.2

/-- Takes a definition into the catalog, with nothing else going on. -/
def run (root path : Path) (workspace : Workspace σ) : DatabaseTask × Workspace σ :=
  (onward root)^[stepCount] (.found path, workspace)

/-- The steps that a task has behind it. -/
def rank : DatabaseTask → Nat
  | found _ => 0
  | dated .. => 1
  | outdated .. => 2
  | loaded .. => 3
  | done _ => 4

theorem exists_done_of_rank {task : DatabaseTask} (hrank : stepCount ≤ task.rank) :
    ∃ result, task = .done result := by
  cases task with
  | done result => exact ⟨result, rfl⟩
  | found | dated | outdated | loaded => simp [rank, stepCount] at hrank

/-- With every step a task comes nearer to its end. -/
theorem rank_step (root : Path) (task : DatabaseTask) (workspace : Workspace σ) :
    min stepCount (task.rank + 1) ≤ (task.step root workspace).1.rank := by
  cases task with
  | found path =>
      simp only [step]
      split
      · rename_i next hnext
        cases hname : Definition.nameOf root path with
        | error error =>
            rw [hname] at hnext
            cases hnext
        | ok name =>
            cases hmodified : Definition.modifiedAt workspace.environment.files path with
            | error error =>
                rw [hname, hmodified] at hnext
                cases hnext
            | ok modified =>
                rw [hname, hmodified] at hnext
                cases hnext
                simp [rank, stepCount]
      · simp [rank, stepCount]
  | dated path name modified =>
      simp only [step]
      split
      · split <;> simp [rank, stepCount]
      · simp [rank, stepCount]
  | outdated path name existing =>
      simp only [step]
      split <;> simp [rank, stepCount]
  | loaded name existing config => simp [step, rank, stepCount]
  | done result => simp [step, rank, stepCount]

theorem rank_iterate (root : Path) (n : Nat) (current : DatabaseTask × Workspace σ) :
    min stepCount (current.1.rank + n) ≤ ((onward root)^[n] current).1.rank := by
  induction n generalizing current with
  | zero => exact Nat.min_le_right _ _
  | succ n ih =>
      have hnext := rank_step root current.1 current.2
      have hrest := ih (onward root current)
      rw [Function.iterate_succ_apply]
      simp only [onward] at hrest ⊢
      omega

theorem exists_run_eq_done (root path : Path) (workspace : Workspace σ) :
    ∃ result, (run root path workspace).1 = .done result :=
  exists_done_of_rank (Nat.le_trans (by simp [stepCount, rank])
    (rank_iterate root stepCount (.found path, workspace)))

/-- A step reads the clock and makes an identifier, or does nothing of the kind. -/
theorem environment_step (root : Path) (task : DatabaseTask) (workspace : Workspace σ) :
    (task.step root workspace).2.environment = workspace.environment ∨
      (task.step root workspace).2.environment = workspace.stamped.environment := by
  cases task with
  | found path =>
      simp only [step]
      split <;> exact Or.inl rfl
  | dated path name modified =>
      simp only [step]
      split
      · split <;> exact Or.inl rfl
      · exact Or.inl rfl
  | outdated path name existing =>
      simp only [step]
      split <;> exact Or.inl rfl
  | loaded name existing config =>
      simp only [step, replace_eq]
      cases existing with
      | none => exact Or.inr rfl
      | some found =>
          simp only [Option.elim_some]
          rcases hchange : workspace.change (.dropDatabase name) with ⟨dropped, middle⟩
          have hmiddle : middle.environment = workspace.environment := by
            rw [show middle = (workspace.change (.dropDatabase name)).2 by rw [hchange]]
            rfl
          cases dropped with
          | error error => exact Or.inl hmiddle
          | ok _ =>
              right
              show middle.stamped.environment = _
              simp only [Workspace.stamped, Workspace.stamp, hmiddle]
  | done result => exact Or.inl rfl

end DatabaseTask

/-! ## Nodes to the end -/

namespace NodeTask

open Reading

variable {drivers : Drivers (Environment σ) γ} {databases : KeyMap String Database}
  {steady : Environment σ → Prop} {answer : Answering} {workspace : Workspace σ}

/-- A task that goes on has ended, or it waits for an answer. -/
theorem settle_done_or_reading (definition : NodeDefinition) (existing : Option Node)
    (found : List Representation) (readings : List (Reading (Environment σ)))
    (workspace : Workspace σ) :
    (∃ result, (settle definition existing found readings workspace).1 = .done result) ∨
      ((settle definition existing found readings workspace).1 =
          .reading existing found readings ∧ awaited readings ≠ []) := by
  unfold settle
  split
  · rename_i hanswers
    exact Or.inr ⟨rfl, awaited_ne_nil_of_mapM_answer? hanswers⟩
  · exact Or.inl ⟨_, rfl⟩

/-- The task has ended, or it waits for answers at certain times only. -/
def WaitsFor (clocks : List Nat) (task : NodeTask σ) : Prop :=
  (∃ result, task = .done result) ∨
    ∃ existing found readings, task = .reading existing found readings ∧
      awaited readings ≠ [] ∧ ∀ due ∈ awaited readings, due ∈ clocks

theorem WaitsFor.step {clock : Nat} {clocks : List Nat} {task : NodeTask σ}
    (hwaits : task.WaitsFor (clock :: clocks)) (drivers : Drivers (Environment σ) γ)
    (databases : KeyMap String Database) (definition : NodeDefinition) (workspace : Workspace σ) :
    (task.step drivers databases clock definition workspace).1.WaitsFor clocks := by
  rcases hwaits with ⟨result, rfl⟩ | ⟨existing, found, readings, rfl, -, hclocks⟩
  · exact Or.inl ⟨result, rfl⟩
  · simp only [NodeTask.step]
    rcases settle_done_or_reading definition existing found
      (Reading.wakeAll clock readings workspace.environment).1 _ with hdone |
        ⟨hreading, hawaited⟩
    · exact Or.inl hdone
    · refine Or.inr ⟨existing, found, _, hreading, hawaited, fun due hdue => ?_⟩
      rw [awaited_wakeAll, List.mem_filter] at hdue
      rcases List.mem_cons.mp (hclocks due hdue.1) with rfl | hlater
      · simp at hdue
      · exact hlater

/-- By induction on the times: when the last one has come, the task has ended. -/
theorem WaitsFor.exists_done {clocks : List Nat} {current : NodeTask σ × Workspace σ}
    (hwaits : current.1.WaitsFor clocks) (drivers : Drivers (Environment σ) γ)
    (databases : KeyMap String Database) (definition : NodeDefinition) :
    ∃ result, (clocks.foldl (fun current clock =>
      NodeTask.step drivers databases clock definition current.1 current.2) current).1 =
        .done result := by
  induction clocks generalizing current with
  | nil =>
      rcases hwaits with hdone | ⟨_, _, readings, -, hawaited, hclocks⟩
      · exact hdone
      · obtain ⟨due, hdue⟩ := List.exists_mem_of_ne_nil _ hawaited
        cases hclocks due hdue
  | cons clock clocks ih => exact ih (hwaits.step drivers databases definition current.2)

theorem exists_run_eq_done (drivers : Drivers (Environment σ) γ)
    (databases : KeyMap String Database) (definition : NodeDefinition) (workspace : Workspace σ) :
    ∃ result, (run drivers databases definition workspace).1 = .done result := by
  refine WaitsFor.exists_done ?_ drivers databases definition
  rcases step_ready drivers databases 0 definition workspace with ⟨result, hresult⟩ | ⟨existing,
    found, readings, hreading, hawaited, -⟩
  · left
    cases htask : (step drivers databases 0 definition .ready workspace).1 with
    | done other => exact ⟨other, rfl⟩
    | ready | reading =>
        rw [htask] at hresult
        cases hresult
  · refine Or.inr ⟨existing, found, readings, hreading, hawaited, fun due hdue => ?_⟩
    rw [hreading]
    exact mem_dueTimes.mpr hdue

end NodeTask

/-! ## Whole runs -/

namespace Compilation

/-- A definition is taken from its first step to its last. -/
inductive Turn (setting : CompileSetting σ γ) (current : Compilation σ) : Compilation σ → Prop
  | index {front rest : List (Path × DatabaseTask)} {path : Path}
      (hstage : current.stage = .indexing (front ++ (path, .found path) :: rest))
      {environment : Environment σ} (hfiles : environment.files = setting.files)
      {next : DatabaseTask × Workspace σ}
      (hnext : DatabaseTask.run setting.root path
        { current.workspace with environment := environment } = next) :
      Turn setting current ⟨.indexing (front ++ (path, next.1) :: rest), next.2⟩
  /-- All databases have been indexed, and the definitions of nodes are loaded. -/
  | load {tasks : List (Path × DatabaseTask)} (hstage : current.stage = .indexing tasks)
      (hdone : ∀ pair ∈ tasks, ∃ result, pair.2 = .done result) :
      Turn setting current
        ⟨.compiling current.workspace.session.databasesByName .looking
          (.ofDefinitions setting.extract setting.nodes) fun _ => .ready, current.workspace⟩
  /-- Of the nodes that may be started one is compiled. -/
  | compile {databases : KeyMap String Database} {schedule : Schedule}
      {tasks : String → NodeTask σ} {definition : NodeDefinition}
      (hstage : current.stage = .compiling databases .looking schedule tasks)
      (hflight : definition ∈ schedule.start.inFlight) (hready : tasks definition.name = .ready)
      {environment : Environment σ} (hsteady : setting.steady environment)
      {next : NodeTask σ × Workspace σ}
      (hnext : NodeTask.run setting.drivers databases definition
        { current.workspace with environment := environment } = next)
      {result : Except CompileError Node} (hdone : next.1 = .done result) :
      Turn setting current
        ⟨.compiling databases .looking (schedule.start.complete definition result)
          (Function.update tasks definition.name next.1), next.2⟩

/-- The runs in which one definition is taken at a time. -/
def OneByOne (setting : CompileSetting σ γ) : Compilation σ → Compilation σ → Prop :=
  Relation.ReflTransGen (Turn setting)

variable {setting : CompileSetting σ γ} {base : Catalog} {answer : Answering}
  {current next : Compilation σ}

theorem files_onward {current : DatabaseTask × Workspace σ} {files : FileTree}
    (hfiles : current.2.environment.files = files) (root : Path) :
    (DatabaseTask.onward root current).2.environment.files = files := by
  rcases DatabaseTask.environment_step root current.1 current.2 with hsame | hstamped
  · rw [DatabaseTask.onward, hsame, hfiles]
  · rw [DatabaseTask.onward, hstamped, Workspace.files_stamped, hfiles]

/-- By induction on the steps: a database may take them one after another. -/
theorem run_onward (n : Nat) (front rest : List (Path × DatabaseTask)) (path : Path)
    {current : DatabaseTask × Workspace σ}
    (hfiles : current.2.environment.files = setting.files) :
    Run setting ⟨.indexing (front ++ (path, current.1) :: rest), current.2⟩
      ⟨.indexing (front ++ (path, ((DatabaseTask.onward setting.root)^[n] current).1) :: rest),
        ((DatabaseTask.onward setting.root)^[n] current).2⟩ := by
  induction n generalizing current with
  | zero => exact .refl
  | succ n ih =>
      rw [Function.iterate_succ_apply]
      exact .head (.index rfl hfiles rfl) (ih (files_onward hfiles setting.root))

/-- By induction on the times: a node may take its turns one after another. -/
theorem run_turns (hdatabases : (setting.databases.map (·.name)).Nodup)
    (hnodes : (setting.nodes.map (·.name)).Nodup)
    (hanswers : setting.drivers.Answers setting.steady answer)
    {databases : KeyMap String Database} {schedule : Schedule} {tasks : String → NodeTask σ}
    {definition : NodeDefinition} (hflight : definition ∈ schedule.inFlight) (clocks : List Nat)
    {current : NodeTask σ × Workspace σ}
    (hinformed : Informed setting answer base
      ⟨.compiling databases .waiting schedule (Function.update tasks definition.name current.1),
        current.2⟩) (hsteady : setting.steady current.2.environment) :
    let last := clocks.foldl (fun current clock =>
      NodeTask.step setting.drivers databases clock definition current.1 current.2) current
    Run setting
      ⟨.compiling databases .waiting schedule (Function.update tasks definition.name current.1),
        current.2⟩
      ⟨.compiling databases .waiting schedule (Function.update tasks definition.name last.1),
        last.2⟩ := by
  induction clocks generalizing current with
  | nil => exact .refl
  | cons clock clocks ih =>
      let next := NodeTask.step setting.drivers databases clock definition current.1 current.2
      have hstep : Step setting
          ⟨.compiling databases .waiting schedule (Function.update tasks definition.name current.1),
            current.2⟩
          ⟨.compiling databases .waiting schedule (Function.update
            (Function.update tasks definition.name current.1) definition.name next.1), next.2⟩ :=
        .turn rfl hflight clock hsteady (by rw [Function.update_self])
      rw [Function.update_idem] at hstep
      have hmem := (hinformed.stage.mem_of_inFlight hnodes hflight).1
      have hstands := hinformed.stage.stands definition hmem
      rw [Function.update_self] at hstands
      refine .head hstep (ih ?_
        (NodeTask.keeps_step (Forecast.ofAnswers_keeps hanswers) hstands clock hsteady))
      exact hstep.sound hdatabases hnodes (Forecast.ofAnswers_holds hanswers) hinformed

/-- A definition that is taken from its first step to its last takes its steps. -/
theorem Turn.run (hdatabases : (setting.databases.map (·.name)).Nodup)
    (hnodes : (setting.nodes.map (·.name)).Nodup)
    (hanswers : setting.drivers.Answers setting.steady answer)
    (hinformed : Informed setting answer base current) (hturn : Turn setting current next) :
    Run setting current next := by
  obtain ⟨stage, workspace⟩ := current
  cases hturn with
  | @index front rest path hstage environment hfiles _ hnext =>
      cases hstage
      subst hnext
      let first : DatabaseTask × Workspace σ :=
        DatabaseTask.onward setting.root (.found path, ⟨workspace.session, environment⟩)
      have hfirst : first.2.environment.files = setting.files := files_onward hfiles setting.root
      refine .head (.index rfl hfiles rfl) ?_
      rw [DatabaseTask.run, DatabaseTask.stepCount, Function.iterate_succ_apply]
      exact run_onward 3 front rest path hfirst
  | load hstage hdone =>
      cases hstage
      exact .single (.load rfl hdone)
  | @compile databases schedule tasks definition hstage hflight hready environment hsteady _ hnext
      result hdone =>
      cases hstage
      subst hnext
      have hopen : ¬ schedule.IsOver := by
        intro hover
        rw [Schedule.start_eq_self hover.1, hover.2] at hflight
        cases hflight
      have hforecast := Forecast.ofAnswers_holds hanswers
      have hstart : Step setting ⟨.compiling databases .looking schedule tasks, workspace⟩
          ⟨.compiling databases .waiting schedule.start tasks, workspace⟩ := .start rfl hopen
      have hstarted := hstart.sound hdatabases hnodes hforecast hinformed
      let first : NodeTask σ × Workspace σ := NodeTask.step setting.drivers databases 0 definition
        .ready ⟨workspace.session, environment⟩
      have hfirst : Step setting ⟨.compiling databases .waiting schedule.start tasks, workspace⟩
          ⟨.compiling databases .waiting schedule.start
            (Function.update tasks definition.name first.1), first.2⟩ :=
        .turn rfl hflight 0 hsteady (by rw [hready])
      have hstands := hstarted.stage.stands definition
        (hstarted.stage.mem_of_inFlight hnodes hflight).1
      rw [hready] at hstands
      have hturns := run_turns hdatabases hnodes hanswers hflight first.1.dueTimes
        (hfirst.sound hdatabases hnodes hforecast hstarted)
        (NodeTask.keeps_step (Forecast.ofAnswers_keeps hanswers) hstands 0 hsteady)
      refine .head hstart (.head hfirst (.tail hturns (.complete rfl hflight ?_)))
      rw [Function.update_self]
      exact hdone

/-- By induction on the run. -/
theorem OneByOne.run (hdatabases : (setting.databases.map (·.name)).Nodup)
    (hnodes : (setting.nodes.map (·.name)).Nodup)
    (hanswers : setting.drivers.Answers setting.steady answer)
    (hone : OneByOne setting current next) (hinformed : Informed setting answer base current) :
    Run setting current next := by
  induction hone with
  | refl => exact .refl
  | tail _ hturn ih =>
      exact ih.trans (hturn.run hdatabases hnodes hanswers
        (ih.sound hdatabases hnodes (Forecast.ofAnswers_holds hanswers) hinformed))

/-! ## Every repository can be compiled so -/

/-- By induction on the paths that are left. -/
theorem exists_oneByOne_indexed {environment : Environment σ}
    (hfiles : environment.files = setting.files) (paths : List Path)
    (front : List (Path × DatabaseTask)) (workspace : Workspace σ)
    (hfront : ∀ pair ∈ front, ∃ result, pair.2 = .done result) :
    ∃ tasks after,
      OneByOne setting
        ⟨.indexing (front ++ paths.map fun path => (path, .found path)), workspace⟩
        ⟨.indexing tasks, after⟩ ∧ ∀ pair ∈ tasks, ∃ result, pair.2 = .done result := by
  induction paths generalizing front workspace with
  | nil =>
      rw [List.map_nil, List.append_nil]
      exact ⟨front, workspace, .refl, hfront⟩
  | cons path rest ih =>
      let next := DatabaseTask.run setting.root path ⟨workspace.session, environment⟩
      have hnext : ∀ pair ∈ front ++ [(path, next.1)], ∃ result, pair.2 = .done result := by
        intro pair hpair
        rcases List.mem_append.mp hpair with hold | hnew
        · exact hfront pair hold
        · rw [List.mem_singleton.mp hnew]
          exact DatabaseTask.exists_run_eq_done setting.root path _
      obtain ⟨tasks, after, hone, hdone⟩ := ih (front ++ [(path, next.1)]) next.2 hnext
      rw [List.append_assoc] at hone
      exact ⟨tasks, after, .head (.index rfl hfiles rfl) hone, hdone⟩

/-- A node that may be started has not begun, if none of those that were started has. -/
theorem Compiles.ready_of_start {databases : KeyMap String Database} {schedule : Schedule}
    {tasks : String → NodeTask σ} {session : Session}
    {forecast : Forecast σ}
    (hcompiles : Compiles setting forecast base databases .looking schedule tasks session)
    (hready : ∀ definition ∈ schedule.inFlight, tasks definition.name = .ready)
    {definition : NodeDefinition} (hflight : definition ∈ schedule.start.inFlight) :
    tasks definition.name = .ready := by
  obtain ⟨hstarted, hended⟩ := Schedule.mem_inFlight.mp hflight
  rcases List.mem_append.mp hstarted with hold | hnew
  · exact hready definition (Schedule.mem_inFlight.mpr ⟨hold, hended⟩)
  · exact hcompiles.unstarted definition.name (Schedule.mem_ready.mp hnew).2.1

/-- As long as a run is not over, there is a node that can be compiled. -/
theorem exists_turn (hdatabases : (setting.databases.map (·.name)).Nodup)
    (hnodes : (setting.nodes.map (·.name)).Nodup)
    (hanswers : setting.drivers.Answers setting.steady answer) {environment : Environment σ}
    (hsteady : setting.steady environment) {databases : KeyMap String Database}
    {schedule : Schedule} {tasks : String → NodeTask σ} {workspace : Workspace σ}
    (hinformed : Informed setting answer base
      ⟨.compiling databases .looking schedule tasks, workspace⟩)
    (hready : ∀ definition ∈ schedule.inFlight, tasks definition.name = .ready)
    (hopen : ¬ schedule.IsOver) :
    ∃ later laterTasks after,
      Turn setting ⟨.compiling databases .looking schedule tasks, workspace⟩
        ⟨.compiling databases .looking later laterTasks, after⟩ ∧
      Informed setting answer base ⟨.compiling databases .looking later laterTasks, after⟩ ∧
      (∀ definition ∈ later.inFlight, laterTasks definition.name = .ready) ∧
      later.outcomes.length = schedule.outcomes.length + 1 := by
  obtain ⟨events, hrun, -⟩ := hinformed.stage.run
  obtain ⟨definition, hflight⟩ := hrun.exists_inFlight hnodes hopen
  obtain ⟨result, hdone⟩ := NodeTask.exists_run_eq_done setting.drivers databases definition
    ⟨workspace.session, environment⟩
  have hturn : Turn setting ⟨.compiling databases .looking schedule tasks, workspace⟩
      ⟨.compiling databases .looking (schedule.start.complete definition result) _, _⟩ :=
    .compile rfl hflight (hinformed.stage.ready_of_start hready hflight) hsteady rfl hdone
  refine ⟨_, _, _, hturn, ?_, ?_, ?_⟩
  · exact (hturn.run hdatabases hnodes hanswers hinformed).sound hdatabases hnodes
      (Forecast.ofAnswers_holds hanswers) hinformed
  · intro other hother
    obtain ⟨hstarted, hended⟩ := Schedule.mem_inFlight.mp hother
    have hne : other.name ≠ definition.name := by
      intro hsame
      apply hended
      simp [Schedule.complete, hsame]
    rw [Function.update_of_ne hne]
    refine hinformed.stage.ready_of_start hready (Schedule.mem_inFlight.mpr ⟨hstarted, ?_⟩)
    intro hold
    apply hended
    rw [Schedule.complete, List.map_append]
    exact List.mem_append_left _ hold
  · simp [Schedule.complete, Schedule.start]

/-- By induction on the nodes that can still end. -/
theorem exists_oneByOne_over (hdatabases : (setting.databases.map (·.name)).Nodup)
    (hnodes : (setting.nodes.map (·.name)).Nodup)
    (hanswers : setting.drivers.Answers setting.steady answer) {environment : Environment σ}
    (hsteady : setting.steady environment) (left : Nat) {databases : KeyMap String Database}
    {schedule : Schedule} {tasks : String → NodeTask σ} {workspace : Workspace σ}
    (hinformed : Informed setting answer base
      ⟨.compiling databases .looking schedule tasks, workspace⟩)
    (hready : ∀ definition ∈ schedule.inFlight, tasks definition.name = .ready)
    (hleft : setting.nodes.length ≤ schedule.outcomes.length + left) :
    ∃ last, OneByOne setting ⟨.compiling databases .looking schedule tasks, workspace⟩ last ∧
      last.IsOver := by
  induction left generalizing schedule tasks workspace with
  | zero =>
      by_cases hover : schedule.IsOver
      · exact ⟨_, .refl, _, _, _, rfl, hover⟩
      · obtain ⟨later, laterTasks, after, -, hlater, -, hlength⟩ :=
          exists_turn hdatabases hnodes hanswers hsteady hinformed hready hover
        obtain ⟨events, hrun, -⟩ := hlater.stage.run
        have hbound := hrun.length_outcomes_le hnodes
        omega
  | succ left ih =>
      by_cases hover : schedule.IsOver
      · exact ⟨_, .refl, _, _, _, rfl, hover⟩
      · obtain ⟨later, laterTasks, after, hturn, hlater, hreadyLater, hlength⟩ :=
          exists_turn hdatabases hnodes hanswers hsteady hinformed hready hover
        obtain ⟨last, hone, hlast⟩ := ih hlater hreadyLater (by omega)
        exact ⟨last, .head hturn hone, hlast⟩

/-- Every repository can be compiled one definition at a time. -/
theorem exists_oneByOne (hdatabases : (setting.databases.map (·.name)).Nodup)
    (hnodes : (setting.nodes.map (·.name)).Nodup)
    (hanswers : setting.drivers.Answers setting.steady answer) (base : Catalog)
    {environment : Environment σ} (hfiles : environment.files = setting.files)
    (hsteady : setting.steady environment) :
    ∃ last, OneByOne setting (begin setting base environment) last ∧ last.IsOver := by
  obtain ⟨tasks, after, hindexed, hdone⟩ := exists_oneByOne_indexed hfiles
    (Definition.discover setting.files setting.root .database) [] ⟨.start base, environment⟩
    (by simp)
  have hloaded : OneByOne setting (begin setting base environment) _ :=
    hindexed.tail (.load rfl hdone)
  have hbegin : Informed setting answer base (begin setting base environment) :=
    sound_begin setting base environment
  have hinformed := (hloaded.run hdatabases hnodes hanswers hbegin).sound hdatabases hnodes
    (Forecast.ofAnswers_holds hanswers) hbegin
  obtain ⟨last, hone, hover⟩ := exists_oneByOne_over hdatabases hnodes hanswers hsteady
    setting.nodes.length hinformed (fun definition hflight => rfl) (by simp)
  exact ⟨last, hloaded.trans hone, hover⟩

end Compilation

end MetricCatalog
