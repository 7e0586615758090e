/-
# The order in which a run goes on

The program indexes databases in rounds, in which every task takes a step, and
compiles nodes as its agenda says: jobs take turns, and when all of them wait,
the clock goes on. This is one order among those that a run may have, so a run
of the program comes to an end that its tasks may come to in any order. Nothing
else changes the surroundings then, so the clock does not go back in between.
-/

import MetricCatalog.Proofs.Compile.Timing
import MetricCatalog.Proofs.Schedule.Jobs
import MetricCatalog.Proofs.Schedule.Report

namespace MetricCatalog

namespace Compilation

variable {σ γ : Type} {setting : CompileSetting σ γ} {base : Catalog} {forecast : Forecast σ}

/-! ## Rounds of databases -/

/-- By induction on the tasks: in a round they take their steps one after another. -/
theorem exists_run_stepAll (holds : Environment σ → Prop)
    (hfiles : ∀ environment, holds environment → environment.files = setting.files)
    (hstamped : ∀ workspace : Workspace σ, holds workspace.environment →
      holds workspace.stamped.environment) (rank : Nat) (pairs front : List (Path × DatabaseTask))
    {workspace : Workspace σ} (hholds : holds workspace.environment)
    (hrank : ∀ pair ∈ pairs, rank ≤ pair.2.rank) :
    ∃ later, (DatabaseTask.stepAll setting.root (pairs.map (·.2)) workspace).1 = later.map (·.2) ∧
      TimedRun setting ⟨.indexing (front ++ pairs), workspace⟩ ⟨.indexing (front ++ later),
        (DatabaseTask.stepAll setting.root (pairs.map (·.2)) workspace).2⟩ ∧
      holds (DatabaseTask.stepAll setting.root (pairs.map (·.2)) workspace).2.environment ∧
      ∀ pair ∈ later, min DatabaseTask.stepCount (rank + 1) ≤ pair.2.rank := by
  induction pairs generalizing front workspace with
  | nil => exact ⟨[], rfl, .refl, hholds, by simp⟩
  | cons pair rest ih =>
      obtain ⟨path, task⟩ := pair
      let next := task.step setting.root workspace
      have hnext : holds next.2.environment := by
        rcases DatabaseTask.environment_step setting.root task workspace with hsame | hstamp
        · rw [hsame]
          exact hholds
        · rw [hstamp]
          exact hstamped workspace hholds
      obtain ⟨later, htasks, hrun, hlater, hranks⟩ := ih (front ++ [(path, next.1)]) hnext
        fun other hother => hrank other (List.mem_cons_of_mem _ hother)
      rw [List.append_assoc, List.append_assoc] at hrun
      refine ⟨(path, next.1) :: later, congrArg (next.1 :: ·) htasks,
        .head (.index rfl (Instant.le_refl _) (hfiles _ hholds) rfl) hrun, hlater, ?_⟩
      intro other hother
      rcases List.mem_cons.mp hother with rfl | hrest
      · have hstep := DatabaseTask.rank_step setting.root task workspace
        have hbefore := hrank (path, task) List.mem_cons_self
        simp only [next] at hstep hbefore ⊢
        omega
      · exact hranks other hrest

/-- By induction on the rounds. -/
theorem exists_run_rounds (holds : Environment σ → Prop)
    (hfiles : ∀ environment, holds environment → environment.files = setting.files)
    (hstamped : ∀ workspace : Workspace σ, holds workspace.environment →
      holds workspace.stamped.environment) (n rank : Nat)
    (pairs : List (Path × DatabaseTask)) (workspace : Workspace σ)
    (hholds : holds workspace.environment) (hrank : ∀ pair ∈ pairs, rank ≤ pair.2.rank) :
    ∃ later,
      TimedRun setting ⟨.indexing pairs, workspace⟩ ⟨.indexing later,
        (DatabaseTask.rounds setting.root n (pairs.map (·.2)) workspace).2⟩ ∧
      holds (DatabaseTask.rounds setting.root n (pairs.map (·.2)) workspace).2.environment ∧
      ∀ pair ∈ later, min DatabaseTask.stepCount (rank + n) ≤ pair.2.rank := by
  induction n generalizing rank pairs workspace with
  | zero =>
      exact ⟨pairs, .refl, hholds, fun pair hpair =>
        Nat.le_trans (Nat.min_le_right _ _) (hrank pair hpair)⟩
  | succ n ih =>
      obtain ⟨middle, htasks, hround, hmiddle, hranks⟩ :=
        exists_run_stepAll holds hfiles hstamped rank pairs [] hholds hrank
      obtain ⟨later, hrun, hlater, hends⟩ := ih _ middle _ hmiddle hranks
      simp only [DatabaseTask.rounds, htasks]
      exact ⟨later, hround.trans hrun, hlater, fun pair hpair => by
        have hend := hends pair hpair
        omega⟩

theorem snd_indexAll (root : Path) (workspace : Workspace σ) :
    (DatabaseTask.indexAll root workspace).2 =
      (DatabaseTask.rounds root DatabaseTask.stepCount
        ((Definition.discover workspace.environment.files root .database).map .found)
        workspace).2 := by
  simp only [DatabaseTask.indexAll]

/-- The rounds of the program take all databases to the end. -/
theorem exists_run_indexAll (hkeeps : forecast.Keeps setting.drivers setting.steady)
    (base : Catalog) {environment : Environment σ} (hfiles : environment.files = setting.files)
    (hsteady : setting.steady environment) {indexed : Workspace σ}
    (hindexed : (DatabaseTask.indexAll setting.root ⟨.start base, environment⟩).2 = indexed) :
    ∃ tasks, TimedRun setting (begin setting base environment) ⟨.indexing tasks, indexed⟩ ∧
      (indexed.environment.files = setting.files ∧ setting.steady indexed.environment) ∧
      ∀ pair ∈ tasks, ∃ result, pair.2 = .done result := by
  let pairs := (Definition.discover setting.files setting.root .database).map fun path =>
    (path, DatabaseTask.found path)
  have hpairs : pairs.map (·.2) =
      (Definition.discover environment.files setting.root .database).map .found := by
    rw [List.map_map, hfiles]
    rfl
  rw [snd_indexAll, ← hpairs] at hindexed
  obtain ⟨tasks, hrun, hstays, hranks⟩ := exists_run_rounds
    (fun environment => environment.files = setting.files ∧ setting.steady environment)
    (fun _ hholds => hholds.1)
    (fun workspace hholds => ⟨by rw [Workspace.files_stamped, hholds.1],
      (hkeeps.stamp _ (hkeeps.stamp _ hholds.2).1).2⟩)
    DatabaseTask.stepCount 0 pairs ⟨.start base, environment⟩ ⟨hfiles, hsteady⟩
    fun _ _ => Nat.zero_le _
  rw [hindexed] at hrun hstays
  exact ⟨tasks, hrun, hstays, fun pair hpair =>
    DatabaseTask.exists_done_of_rank (by simpa using hranks pair hpair)⟩

end Compilation

/-! ## Turns of nodes -/

namespace Agenda

variable {σ γ : Type} {setting : CompileSetting σ γ} {base : Catalog} {forecast : Forecast σ}
  {databases : KeyMap String Database} {agenda : Agenda σ} {phase : Schedule.Phase}
  {tasks : String → NodeTask σ}

/-- The state of a run that is as far as an agenda. -/
def state (databases : KeyMap String Database) (phase : Schedule.Phase)
    (tasks : String → NodeTask σ) (agenda : Agenda σ) : Compilation σ :=
  ⟨.compiling databases phase agenda.schedule tasks, agenda.workspace⟩

/-- The jobs of the agenda are the tasks that a run has in flight. -/
structure Mirrors (agenda : Agenda σ) (phase : Schedule.Phase) (tasks : String → NodeTask σ) :
    Prop where
  jobs : ∀ job ∈ agenda.runnable ++ agenda.waiting, tasks job.definition.name = job.task
  looking : phase = .looking → agenda.schedule.IsOver

/-- No two jobs are for definitions of one name. -/
theorem Sound.nodup_names {extract : String → NameSet} {definitions : List NodeDefinition}
    (hnames : (definitions.map (·.name)).Nodup)
    (hsound : Sound (.ofDefinitions extract definitions) agenda) :
    ((agenda.runnable ++ agenda.waiting).map (·.definition.name)).Nodup := by
  obtain ⟨events, schedule, hrun, hschedule⟩ := hsound.run
  have hstarted := ((hrun.consistent hnames).start hnames).started_nodup
  rw [← hschedule] at hstarted
  have hflight : (agenda.schedule.inFlight.map (·.name)).Nodup :=
    hstarted.sublist (List.filter_sublist.map _)
  have hjobs := (hsound.flight.map (·.name)).nodup_iff.mpr hflight
  rwa [List.map_map] at hjobs

/-- When all that is ready has been started, the new jobs are among the tasks. -/
theorem exists_mirrors_start (agenda : Agenda σ)
    (hjobs : ∀ job ∈ agenda.runnable ++ agenda.waiting, tasks job.definition.name = job.task)
    (hstands : Compilation.Sound setting forecast base (agenda.state databases .looking tasks)) :
    ∃ phase, Compilation.TimedRun setting (agenda.state databases .looking tasks)
        (agenda.start.state databases phase tasks) ∧
      agenda.start.Mirrors phase tasks := by
  have hstarted : ∀ job ∈ agenda.start.runnable ++ agenda.start.waiting,
      tasks job.definition.name = job.task := by
    intro job hjob
    have hsplit : job ∈ agenda.runnable ++ agenda.waiting ∨
        job ∈ startedJobs agenda.schedule := by
      have hall : job ∈ (agenda.runnable ++ startedJobs agenda.schedule) ++ agenda.waiting := hjob
      simp only [List.mem_append] at hall ⊢
      tauto
    rcases hsplit with hold | hnew
    · exact hjobs job hold
    · have hready : job.definition ∈ agenda.schedule.ready := by
        rw [← map_definition_startedJobs (σ := σ) agenda.schedule]
        exact List.mem_map_of_mem hnew
      rw [task_of_mem_startedJobs hnew]
      exact hstands.stage.unstarted _ (Schedule.mem_ready.mp hready).2.1
  by_cases hover : agenda.schedule.IsOver
  · have hsame : agenda.start.schedule = agenda.schedule := Schedule.start_eq_self hover.1
    refine ⟨.looking, ?_, hstarted, fun _ => by rw [hsame]; exact hover⟩
    rw [state, state, hsame]
    exact .refl
  · exact ⟨.waiting, .single (.start rfl hover), hstarted, fun hphase => by cases hphase⟩

/-- While a job is there, the run waits for it. -/
theorem Mirrors.phase_eq (hmirrors : agenda.Mirrors phase tasks) {definition : NodeDefinition}
    (hflight : definition ∈ agenda.schedule.inFlight) : phase = .waiting := by
  cases phase with
  | waiting => rfl
  | looking =>
      rw [(hmirrors.looking rfl).2] at hflight
      cases hflight

/-- When a job goes on, the other jobs have other names, so their tasks are what they were. -/
theorem Mirrors.update_others {extract : String → NameSet} {definitions : List NodeDefinition}
    (hnames : (definitions.map (·.name)).Nodup)
    (hsound : agenda.Sound (.ofDefinitions extract definitions))
    (hmirrors : agenda.Mirrors phase tasks) {job : Job σ} {rest : List (Job σ)}
    (hrunnable : agenda.runnable = job :: rest) (task : NodeTask σ) :
    ∀ other ∈ rest ++ agenda.waiting,
      Function.update tasks job.definition.name task other.definition.name = other.task := by
  intro other hother
  have hdiffer := hsound.nodup_names hnames
  rw [hrunnable, List.cons_append, List.map_cons, List.nodup_cons] at hdiffer
  have hne : other.definition.name ≠ job.definition.name := fun hsame =>
    hdiffer.1 (hsame ▸ List.mem_map_of_mem hother)
  rw [Function.update_of_ne hne]
  apply hmirrors.jobs
  rw [hrunnable]
  exact List.mem_cons_of_mem _ hother

/-- A job that has to wait is a task that has to. -/
theorem mirrors_putAside {job : Job σ} {rest : List (Job σ)} {task : NodeTask σ}
    (hothers : ∀ other ∈ rest ++ agenda.waiting,
      Function.update tasks job.definition.name task other.definition.name = other.task)
    (workspace : Workspace σ) :
    Mirrors (agenda.putAside job rest workspace task) .waiting
      (Function.update tasks job.definition.name task) where
  jobs := by
    intro other hother
    rcases List.mem_append.mp hother with hrest | hshelved
    · exact hothers other (List.mem_append_left _ hrest)
    · rcases List.mem_cons.mp ((shelve_perm _ _).mem_iff.mp hshelved) with rfl | hold
      · exact Function.update_self ..
      · exact hothers other (List.mem_append_right _ hold)
  looking := fun hphase => by cases hphase

theorem task_eq_of_result? {task : NodeTask σ} {result : Except CompileError Node}
    (hresult : task.result? = some result) : task = .done result := by
  cases task with
  | done other =>
      cases hresult
      rfl
  | ready | reading => cases hresult

/-- The turn of a job is a step of the run. -/
theorem Mirrors.turn (hnodes : (setting.nodes.map (·.name)).Nodup)
    (hkeeps : forecast.Keeps setting.drivers setting.steady)
    (hsound : agenda.Sound (.ofDefinitions setting.extract setting.nodes))
    (hcurrent : Compilation.Sound setting forecast base (agenda.state databases phase tasks))
    (hmirrors : agenda.Mirrors phase tasks) (hsteady : setting.steady agenda.workspace.environment)
    {job : Job σ} {rest : List (Job σ)} {task : NodeTask σ} {workspace : Workspace σ}
    (hrunnable : agenda.runnable = job :: rest)
    (hstep : job.task.step setting.drivers databases agenda.clock job.definition agenda.workspace =
      (task, workspace)) :
    job.definition ∈ agenda.schedule.inFlight ∧
      Compilation.TimedStep setting (agenda.state databases phase tasks)
        ⟨.compiling databases .waiting agenda.schedule
          (Function.update tasks job.definition.name task), workspace⟩ ∧
      setting.steady workspace.environment := by
  have hjob : job ∈ agenda.runnable ++ agenda.waiting := by simp [hrunnable]
  have hflight : job.definition ∈ agenda.schedule.inFlight :=
    hsound.flight.mem_iff.mp (List.mem_map_of_mem hjob)
  obtain rfl := hmirrors.phase_eq hflight
  have hstands := hcurrent.stage.stands job.definition
    (hcurrent.stage.mem_of_inFlight hnodes hflight).1
  rw [hmirrors.jobs job hjob] at hstands
  have hstays := NodeTask.keeps_step hkeeps hstands agenda.clock hsteady
  have hturn : Compilation.TimedStep setting (agenda.state databases .waiting tasks)
      ⟨.compiling databases .waiting agenda.schedule
        (Function.update tasks job.definition.name (job.task.step setting.drivers databases
          agenda.clock job.definition agenda.workspace).1),
        (job.task.step setting.drivers databases agenda.clock job.definition
          agenda.workspace).2⟩ :=
    .turn rfl hflight agenda.clock (Instant.le_refl _) hsteady (by
      rw [hmirrors.jobs job hjob]
      rfl)
  rw [hstep] at hstays hturn
  exact ⟨hflight, hturn, hstays⟩

theorem Mirrors.atClock (hmirrors : agenda.Mirrors phase tasks) (clock : Nat) :
    (agenda.atClock clock).Mirrors phase tasks where
  jobs job hjob := hmirrors.jobs job (List.mem_append_right _
    ((List.filter_append_perm (isDue clock) agenda.waiting).mem_iff.mp hjob))
  looking := hmirrors.looking

/-- The next turn of a job is a step of the run, and so is what follows when the job ends. -/
theorem Mirrors.next (hdatabases : (setting.databases.map (·.name)).Nodup)
    (hnodes : (setting.nodes.map (·.name)).Nodup)
    (hforecast : forecast.Holds setting.drivers setting.steady)
    (hkeeps : forecast.Keeps setting.drivers setting.steady)
    (hsound : agenda.Sound (.ofDefinitions setting.extract setting.nodes))
    (hcurrent : Compilation.Sound setting forecast base (agenda.state databases phase tasks))
    (hmirrors : agenda.Mirrors phase tasks) (hsteady : setting.steady agenda.workspace.environment)
    {after : Agenda σ} (hnext : agenda.next? setting.drivers databases = some after) :
    ∃ laterPhase laterTasks,
      Compilation.TimedRun setting (agenda.state databases phase tasks)
        (after.state databases laterPhase laterTasks) ∧
      after.Mirrors laterPhase laterTasks ∧ setting.steady after.workspace.environment := by
  cases next_of_next? hnext with
  | @aside job rest task workspace hrunnable hstep hresult =>
      obtain ⟨-, hturn, hstays⟩ :=
        hmirrors.turn hnodes hkeeps hsound hcurrent hsteady hrunnable hstep
      have hothers := hmirrors.update_others hnodes hsound hrunnable task
      exact ⟨.waiting, _, .single hturn, mirrors_putAside hothers workspace, hstays⟩
  | @ended job rest task workspace result hrunnable hstep hresult =>
      obtain ⟨hflight, hturn, hstays⟩ :=
        hmirrors.turn hnodes hkeeps hsound hcurrent hsteady hrunnable hstep
      have hended : Compilation.TimedRun setting (agenda.state databases phase tasks)
          ⟨.compiling databases .looking (agenda.schedule.complete job.definition result)
            (Function.update tasks job.definition.name task), workspace⟩ :=
        .tail (.single hturn)
          (.complete rfl hflight (by rw [Function.update_self, task_eq_of_result? hresult]))
      obtain ⟨laterPhase, hstart, hlater⟩ := exists_mirrors_start
        { agenda with
          schedule := agenda.schedule.complete job.definition result
          runnable := rest
          workspace := workspace }
        (hmirrors.update_others hnodes hsound hrunnable task)
        (hended.run.sound hdatabases hnodes hforecast hcurrent)
      exact ⟨laterPhase, _, hended.trans hstart, hlater, hstays⟩
  | clock hrunnable hclock => exact ⟨phase, tasks, .refl, hmirrors.atClock _, hsteady⟩

/-- By induction on the turns. -/
theorem Mirrors.run (hdatabases : (setting.databases.map (·.name)).Nodup)
    (hnodes : (setting.nodes.map (·.name)).Nodup)
    (hforecast : forecast.Holds setting.drivers setting.steady)
    (hkeeps : forecast.Keeps setting.drivers setting.steady) (turns : Nat)
    (hsound : agenda.Sound (.ofDefinitions setting.extract setting.nodes))
    (hcurrent : Compilation.Sound setting forecast base (agenda.state databases phase tasks))
    (hmirrors : agenda.Mirrors phase tasks)
    (hsteady : setting.steady agenda.workspace.environment) :
    ∃ laterPhase laterTasks,
      Compilation.TimedRun setting (agenda.state databases phase tasks)
        ((agenda.run setting.drivers databases turns).state databases laterPhase laterTasks) ∧
      (agenda.run setting.drivers databases turns).Mirrors laterPhase laterTasks := by
  induction turns generalizing agenda phase tasks with
  | zero => exact ⟨phase, tasks, .refl, hmirrors⟩
  | succ turns ih =>
      cases hnext : agenda.next? setting.drivers databases with
      | none =>
          simp only [Agenda.run, hnext]
          exact ⟨phase, tasks, .refl, hmirrors⟩
      | some after =>
          obtain ⟨middlePhase, middleTasks, hstep, hmiddle, hstays⟩ :=
            hmirrors.next hdatabases hnodes hforecast hkeeps hsound hcurrent hsteady hnext
          obtain ⟨laterPhase, laterTasks, hrun, hlater⟩ := ih (hsound.next hnodes hnext).1
            (hstep.run.sound hdatabases hnodes hforecast hcurrent) hmiddle
            hstays
          simp only [Agenda.run, hnext]
          exact ⟨laterPhase, laterTasks, hstep.trans hrun, hlater⟩

end Agenda

namespace Compilation

variable {σ γ : Type} {setting : CompileSetting σ γ} {forecast : Forecast σ} {answer : Answering}

/-- What becomes of the definitions of nodes, as far as the run has come. -/
def graph (setting : CompileSetting σ γ) (current : Compilation σ) : GraphReport :=
  match current.stage with
  | .indexing _ => ⟨[], [], []⟩
  | .compiling _ _ schedule _ =>
      .ofSchedule (Repository.loadNodes setting.files setting.root).1 schedule

/-- The program comes to the end of a run, with the report on it. -/
theorem exists_timedRun_compileNodes (hdatabases : (setting.databases.map (·.name)).Nodup)
    (hnodes : (setting.nodes.map (·.name)).Nodup)
    (hforecast : forecast.Holds setting.drivers setting.steady)
    (hkeeps : forecast.Keeps setting.drivers setting.steady) (base : Catalog)
    {environment : Environment σ} (hfiles : environment.files = setting.files)
    (hsteady : setting.steady environment) {indexed : Workspace σ}
    (hindexed : (DatabaseTask.indexAll setting.root ⟨.start base, environment⟩).2 = indexed) :
    ∃ last, TimedRun setting (begin setting base environment) last ∧ last.IsOver ∧
      (last.graph setting, last.workspace) =
        Repository.compileNodes setting.drivers setting.extract setting.root indexed := by
  obtain ⟨pairs, hrounds, ⟨hafter, hstays⟩, hdone⟩ :=
    exists_run_indexAll hkeeps base hfiles hsteady hindexed
  have hloaded : TimedRun setting (begin setting base environment)
      ⟨.compiling indexed.session.databasesByName .looking
        (.ofDefinitions setting.extract setting.nodes) fun _ => .ready, indexed⟩ :=
    hrounds.tail (.load rfl hdone)
  have hbegin : Sound setting forecast base (begin setting base environment) :=
    sound_begin setting base environment
  have hready := hloaded.run.sound hdatabases hnodes hforecast hbegin
  let agenda : Agenda σ :=
    .ofSchedule (.ofDefinitions setting.extract setting.nodes) indexed
  obtain ⟨phase, hstarted, hmirrors⟩ := Agenda.exists_mirrors_start
    ⟨.ofDefinitions setting.extract setting.nodes, [], [], 0, indexed⟩ (by simp) hready
  have hsound : agenda.Sound (.ofDefinitions setting.extract setting.nodes) :=
    Agenda.sound_ofSchedule setting.extract hnodes indexed
  obtain ⟨lastPhase, tasks, hrun, hlast⟩ := Agenda.Mirrors.run hdatabases hnodes hforecast hkeeps
    (Agenda.turns setting.nodes) hsound
    (hstarted.run.sound hdatabases hnodes hforecast hready) hmirrors hstays
  obtain ⟨hended, hnext⟩ := hsound.run_next?_eq_none setting.drivers
    indexed.session.databasesByName hnodes (Agenda.potential_ofSchedule_le hnodes indexed)
  obtain ⟨events, -, hover⟩ := hended.isOver hnodes hnext
  refine ⟨_, hloaded.trans (hstarted.trans hrun), ?_, ?_⟩
  · cases lastPhase with
    | looking => exact ⟨_, _, tasks, rfl, hover⟩
    | waiting =>
        have hlater := ((TimedRun.run (hstarted.trans hrun)).sound hdatabases hnodes hforecast
          hready).stage
        obtain ⟨events, hwaiting, -⟩ := hlater.run
        obtain ⟨definition, hflight⟩ := hwaiting.exists_inFlight_of_waiting hnodes
        rw [hover.2] at hflight
        cases hflight
  · simp only [Repository.compileNodes, hafter]
    rfl

/-- The session that the program comes to is that of a run that is over. -/
theorem exists_run_compileNodes (hdatabases : (setting.databases.map (·.name)).Nodup)
    (hnodes : (setting.nodes.map (·.name)).Nodup)
    (hanswers : setting.drivers.Answers setting.steady answer) (base : Catalog)
    {environment : Environment σ} (hfiles : environment.files = setting.files)
    (hsteady : setting.steady environment) {indexed : Workspace σ}
    (hindexed : (DatabaseTask.indexAll setting.root ⟨.start base, environment⟩).2 = indexed) :
    ∃ last, Run setting (begin setting base environment) last ∧ last.IsOver ∧
      last.workspace =
        (Repository.compileNodes setting.drivers setting.extract setting.root indexed).2 := by
  obtain ⟨last, hrun, hover, hcompiled⟩ := exists_timedRun_compileNodes hdatabases hnodes
    (Forecast.ofAnswers_holds hanswers) (Forecast.ofAnswers_keeps hanswers) base hfiles hsteady
    hindexed
  exact ⟨last, hrun.run, hover, congrArg Prod.snd hcompiled⟩

end Compilation

end MetricCatalog
