/-
# Compiling again

A run over files that have not changed since the run before finds everything as
it has to be: each entry is as new as its definition, and what was not compiled
cannot be compiled now. It makes no change, reads no clock and asks no driver,
and its report is that of the run before.
-/

import MetricCatalog.Proofs.Compile.Revision

namespace MetricCatalog

variable {σ γ : Type}

/-! ## Definitions that are settled -/

/-- No task has to make anything of a definition: its entry is as new, or one of its databases is
not known. -/
def NodeTask.IsSettled (databases : KeyMap String Database) (catalog : Catalog)
    (definition : NodeDefinition) : Prop :=
  definition.IsOutdated ((catalog.nodes.find? definition.name).map (·.updatedAt)) →
    ∃ error, representations databases definition = .error error

theorem DatabaseTask.Stands.rests {root : Path} {workspace : Workspace σ}
    {definition : Definition DatabaseConfig} {stored entry : Option Database}
    {task : DatabaseTask} (hcurrent : ¬ definition.IsOutdated (stored.map (·.updatedAt)))
    (hstands : Stands definition stored task entry) :
    (task.step root workspace).2 = workspace := by
  cases hstands with
  | found =>
      simp only [DatabaseTask.step]
      split <;> rfl
  | dated =>
      simp only [DatabaseTask.step]
      split
      · split <;> rfl
      · rfl
  | outdated hold | loaded hold | made hold => exact absurd hold hcurrent
  | kept => rfl

namespace NodeTask

open Compilation

variable {databases : KeyMap String Database} {forecast : Forecast σ}
  {definition : NodeDefinition} {entry : Option Node} {task : NodeTask σ} {catalog : Catalog}

/-- A definition that is settled by its entry has ended according to the verdict. -/
theorem Stands.done_eq_verdict (hsettled : IsSettled databases catalog definition)
    {stored : Option Node} {result : Except CompileError Node}
    (hstands : Stands forecast databases definition stored (.done result)
      (catalog.nodes.find? definition.name)) :
    result = verdict databases catalog definition := by
  by_cases hold :
    definition.IsOutdated ((catalog.nodes.find? definition.name).map (·.updatedAt))
  · obtain ⟨error, herror⟩ := hsettled hold
    rw [verdict_of_outdated hold, herror]
    generalize catalog.nodes.find? definition.name = entry at hold hstands
    cases hstands with
    | kept hstored hcurrent => exact absurd hcurrent (hold _ (by rw [hstored]; rfl))
    | made _ hfound =>
        rw [hfound] at herror
        cases herror
    | refused _ hrefused =>
        rw [hrefused] at herror
        cases herror
        rfl
  · obtain ⟨node, hfound, hcurrent⟩ := Definition.exists_current hold
    rw [verdict_of_current hfound hcurrent]
    generalize catalog.nodes.find? definition.name = entry at hfound hstands
    subst hfound
    cases hstands with
    | kept hstored =>
        cases hstored
        rfl
    | made => rfl
    | refused hrefused => exact absurd hcurrent (hrefused _ rfl)

/-- The next step of a settled definition is its last one. It changes nothing, and does not ask any
driver. -/
theorem Stands.rests (hsettled : IsSettled databases catalog definition)
    (hstands : Stands forecast databases definition (catalog.nodes.find? definition.name) task
      (catalog.nodes.find? definition.name)) {γ : Type} (drivers : Drivers (Environment σ) γ)
    (clock : Nat) {workspace : Workspace σ}
    (hview : workspace.session.node? definition.name = catalog.nodes.find? definition.name) :
    task.step drivers databases clock definition workspace =
      (.done (verdict databases catalog definition), workspace) := by
  cases htask : task with
  | ready =>
      simp only [NodeTask.step, hview]
      by_cases hold :
        definition.IsOutdated ((catalog.nodes.find? definition.name).map (·.updatedAt))
      · obtain ⟨error, herror⟩ := hsettled hold
        simp only [Definition.isOutdated_iff.mp hold, herror, verdict_of_outdated hold]
        rfl
      · obtain ⟨node, hfound, hcurrent⟩ := Definition.exists_current hold
        rw [verdict_of_current hfound hcurrent, hfound]
        simp [Option.filter, hcurrent]
  | reading existing found readings =>
      rw [htask] at hstands
      unfold IsSettled at hsettled
      generalize catalog.nodes.find? definition.name = stored at hsettled hstands
      cases hstands with
      | reading hold hfound =>
          obtain ⟨error, herror⟩ := hsettled hold
          rw [hfound] at herror
          cases herror
  | done result =>
      rw [htask] at hstands
      rw [← hstands.done_eq_verdict hsettled]
      rfl

end NodeTask

namespace Compilation

variable {setting : CompileSetting σ γ} {catalog : Catalog} {forecast : Forecast σ}
  {names : Set String} {current next : Compilation σ}

/-! ## Runs that change nothing -/

/-- A catalog is as definitions leave it: databases are as new as their definitions, no task has to
make anything of a node that depends on certain names, and other nodes cannot be compiled. -/
structure IsSettled (setting : CompileSetting σ γ) (names : Set String) (catalog : Catalog) :
    Prop where
  databases : ∀ definition ∈ setting.databases,
    ¬ definition.IsOutdated ((catalog.databases.find? definition.name).map (·.updatedAt))
  nodes : ∀ definition ∈ setting.nodes, Schedule.IsWithin setting.extract names definition →
    NodeTask.IsSettled (Session.start catalog).databasesByName catalog definition
  closed : Schedule.IsClosed setting.extract setting.nodes
    (verdict (Session.start catalog).databasesByName catalog) names

/-- The run has changed nothing. What goes on next does not change anything either, whatever the
surroundings are by then. It leaves them alone, and it does not matter what drivers there are. -/
structure AtRest (setting : CompileSetting σ γ) (catalog : Catalog) (current : Compilation σ) :
    Prop where
  session : current.workspace.session = .start catalog
  tasks : match current.stage with
    | .indexing tasks => ∀ pair ∈ tasks, ∀ environment : Environment σ,
        environment.files = setting.files →
          (pair.2.step setting.root ⟨.start catalog, environment⟩).2 = ⟨.start catalog, environment⟩
    | .compiling databases _ schedule tasks => ∀ definition ∈ schedule.inFlight, ∃ result,
        ∀ (δ : Type) (drivers : Drivers (Environment σ) δ) (clock : Nat)
          (environment : Environment σ),
          (tasks definition.name).step drivers databases clock definition
            ⟨.start catalog, environment⟩ = (.done result, ⟨.start catalog, environment⟩)

theorem IsSettled.atRest (hnodes : (setting.nodes.map (·.name)).Nodup)
    (hsettled : IsSettled setting names catalog) (hsound : Sound setting forecast catalog current)
    (hsession : current.workspace.session = .start catalog) : AtRest setting catalog current := by
  obtain ⟨stage, session, surroundings⟩ := current
  obtain rfl : session = .start catalog := hsession
  refine ⟨rfl, ?_⟩
  cases stage with
  | indexing tasks =>
      intro pair hpair environment hfiles
      have htracks := hsound.stage.tracks pair hpair
      cases hload : Definition.load Yaml.readDatabaseConfig setting.files setting.root pair.1 with
      | ok definition =>
          exact (htracks.stands hload).rests
            (hsettled.databases definition (hsound.stage.mem_databases hpair hload))
      | error error =>
          have hidles := htracks.idles hload
          let found : Workspace σ := ⟨.start catalog, environment⟩
          have hfound : found.environment.files = setting.files := hfiles
          rw [← hfound] at hload hidles
          exact (hidles.step hload).2
  | compiling databases phase schedule tasks =>
      intro definition hflight
      have hcompiles := hsound.stage
      have hmem := (hcompiles.mem_of_inFlight hnodes hflight).1
      obtain rfl : databases = (Session.start catalog).databasesByName := hcompiles.snapshot
      have hwithin := hcompiles.isWithin_of_started hnodes hsettled.closed
        (Schedule.mem_inFlight.mp hflight).1
      exact ⟨_, fun δ drivers clock environment =>
        (hcompiles.stands definition hmem).rests (hsettled.nodes definition hmem hwithin) drivers
          clock rfl⟩

theorem AtRest.session_step (hrest : AtRest setting catalog current)
    (hstep : Step setting current next) : next.workspace.session = .start catalog := by
  obtain ⟨stage, session, surroundings⟩ := current
  obtain ⟨hsession, htasks⟩ := hrest
  obtain rfl : session = .start catalog := hsession
  cases hstep with
  | index hstage hfiles hnext =>
      cases hstage
      subst hnext
      exact congrArg Workspace.session (htasks _ List.mem_append_cons_self _ hfiles)
  | turn hstage hflight clock hsteady hnext =>
      cases hstage
      subst hnext
      obtain ⟨result, hrests⟩ := htasks _ hflight
      exact congrArg (fun outcome => outcome.2.session) (hrests _ _ clock _)
  | load | start | complete => rfl

/-- By induction on the run: on a catalog that is settled it never changes anything. -/
theorem Run.atRest (hdatabases : (setting.databases.map (·.name)).Nodup)
    (hnodes : (setting.nodes.map (·.name)).Nodup) (hsettled : IsSettled setting names catalog)
    {environment : Environment σ} (hrun : Run setting (begin setting catalog environment) current) :
    AtRest setting catalog current := by
  have hsound (later : Compilation σ)
      (hlater : Run setting (begin setting catalog environment) later) :
      Sound setting .silent catalog later :=
    hlater.sound hdatabases hnodes (Forecast.silent_holds _ _)
      (sound_begin setting catalog environment)
  induction hrun with
  | refl => exact hsettled.atRest hnodes (hsound _ .refl) rfl
  | tail hbefore hstep ih =>
      exact hsettled.atRest hnodes (hsound _ (hbefore.tail hstep)) (ih.session_step hstep)

/-! ## What a run leaves -/

theorem isOk_verdict_iff {databases : KeyMap String Database} {definition : NodeDefinition} :
    (∃ node, verdict databases catalog definition = .ok node) ↔
      (definition.IsOutdated ((catalog.nodes.find? definition.name).map (·.updatedAt)) →
        ∃ found, NodeTask.representations databases definition = .ok found) := by
  by_cases hold : definition.IsOutdated ((catalog.nodes.find? definition.name).map (·.updatedAt))
  · rw [verdict_of_outdated hold]
    cases NodeTask.representations databases definition <;> simp [hold, Except.map]
  · obtain ⟨node, hfound, hcurrent⟩ := Definition.exists_current hold
    simp [verdict_of_current hfound hcurrent, hold]

end Compilation

namespace KeyMap.Revised

variable {α β : Type} {definitions : List (Definition α)} {updatedAt : β → Instant}
  {isPassed : Definition α → Prop} {renews : Definition α → Option β → β → Prop}
  {before after : KeyMap String β} {definition : Definition α}

theorem isOutdated_before (hrevised : before.Revised definitions updatedAt isPassed renews after)
    (hmem : definition ∈ definitions)
    (hold : definition.IsOutdated ((after.find? definition.name).map updatedAt)) :
    definition.IsOutdated ((before.find? definition.name).map updatedAt) := by
  by_contra hcurrent
  obtain ⟨entry, hfound, hcurrent⟩ := Definition.exists_current hcurrent
  rw [hrevised.current definition hmem entry hfound hcurrent] at hold
  exact hold _ rfl hcurrent

/-- If what is made is as new as its definition, then only the entries of definitions that are
passed over can be out of date. -/
theorem isPassed_of_isOutdated
    (hrevised : before.Revised definitions updatedAt isPassed renews after)
    (hmem : definition ∈ definitions)
    (hrenews : ∀ stored made, renews definition stored made → definition.modified ≤ updatedAt made)
    (hold : definition.IsOutdated ((after.find? definition.name).map updatedAt)) :
    isPassed definition := by
  by_contra hnot
  obtain ⟨entry, hentry, hrenewed⟩ :=
    hrevised.renewed definition hmem hnot (hrevised.isOutdated_before hmem hold)
  rw [hentry] at hold
  exact hold _ rfl (hrenews _ _ hrenewed)

end KeyMap.Revised

namespace Compilation

variable {setting : CompileSetting σ γ} {names : Set String} {before after : Catalog}
  {unresolved : List UnresolvedNode} {during : Instant → Prop}

/-- A revised catalog is settled, if all definitions are older than what was made. -/
theorem isSettled_of_revised (hrevised : before.Revised setting unresolved during after)
    (hdatabases : ∀ time, during time →
      ∀ definition ∈ setting.databases, definition.modified ≤ time)
    (hnodes : ∀ time, during time → ∀ definition ∈ setting.nodes, definition.modified ≤ time)
    (hresolved : ∀ definition ∈ setting.nodes,
      Schedule.IsWithin setting.extract names definition →
        definition.name ∉ unresolved.map (·.name))
    (hclosed : Schedule.IsClosed setting.extract setting.nodes
      (verdict (Session.start after).databasesByName before) names) :
    IsSettled setting names after where
  databases := by
    intro definition hmem hold
    refine hrevised.databases.isPassed_of_isOutdated hmem ?_ hold
    rintro stored _ ⟨id, now, hnow, rfl⟩
    exact hdatabases now hnow definition hmem
  nodes := by
    intro definition hmem hwithin hold
    have hpassed := hrevised.nodes.isPassed_of_isOutdated hmem (by
      rintro stored _ ⟨columns, id, now, hnow, rfl⟩
      exact hnodes now hnow definition hmem) hold
    rcases hpassed with hname | ⟨database, herror⟩
    · exact absurd hname (hresolved definition hmem hwithin)
    · exact ⟨_, herror⟩
  closed := by
    rw [isClosed_congr fun definition hmem => ?_] at hclosed
    · exact hclosed
    · rw [isOk_verdict_iff, isOk_verdict_iff]
      refine ⟨fun hfound hold => hfound (hrevised.nodes.isOutdated_before hmem hold), ?_⟩
      intro hfound hold
      cases hrepresentations : NodeTask.representations (Session.start after).databasesByName
        definition with
      | ok found => exact ⟨found, rfl⟩
      | error error =>
          obtain ⟨database, rfl⟩ := NodeTask.exists_of_representations_error hrepresentations
          rw [← hrevised.nodes.passed definition hmem (Or.inr ⟨database, hrepresentations⟩)] at hold
          rw [hrepresentations] at hfound
          exact hfound hold

end Compilation

/-! ## The same files -/

/-- A run is over the same definitions as another one: in the same files, with the same contents
and of the same time. There may be other drivers, and other surroundings. -/
structure CompileSetting.Repeats {τ δ : Type} (again : CompileSetting τ δ)
    (setting : CompileSetting σ γ) : Prop where
  extract : again.extract = setting.extract
  root : again.root = setting.root
  paths : ∀ kind, Definition.discover again.files setting.root kind =
    Definition.discover setting.files setting.root kind
  modified : ∀ kind, ∀ path ∈ Definition.discover setting.files setting.root kind,
    again.files.modified path = setting.files.modified path
  text : ∀ kind, ∀ path ∈ Definition.discover setting.files setting.root kind,
    again.files.readText path = setting.files.readText path

namespace CompileSetting.Repeats

variable {τ δ : Type} {again : CompileSetting τ δ} {setting : CompileSetting σ γ}

theorem load_eq (hrepeats : again.Repeats setting) {kind : DefinitionKind} {path : Path}
    (hpath : path ∈ Definition.discover setting.files setting.root kind) {α : Type}
    (read : Yaml.Decoder α) :
    Definition.load read again.files again.root path =
      Definition.load read setting.files setting.root path := by
  simp only [Definition.load, Definition.modifiedAt, Definition.readConfig, hrepeats.root,
    hrepeats.modified kind path hpath, hrepeats.text kind path hpath]

theorem databases_eq (hrepeats : again.Repeats setting) : again.databases = setting.databases := by
  simp only [CompileSetting.databases, Repository.loadDatabases]
  rw [hrepeats.root, hrepeats.paths]
  refine List.filterMap_congr fun path hpath => ?_
  rw [← hrepeats.root, hrepeats.load_eq hpath, hrepeats.root]

theorem loadNodes_eq (hrepeats : again.Repeats setting) :
    Repository.loadNodes again.files again.root =
      Repository.loadNodes setting.files setting.root := by
  have hloaded : (Definition.discover again.files again.root .node).map
        (Repository.loadNode again.files again.root) =
      (Definition.discover setting.files setting.root .node).map
        (Repository.loadNode setting.files setting.root) := by
    rw [hrepeats.root, hrepeats.paths]
    refine List.map_congr_left fun path hpath => ?_
    rw [← hrepeats.root, Repository.loadNode, hrepeats.load_eq hpath, hrepeats.root]
    rfl
  simp only [Repository.loadNodes, hloaded]

theorem nodes_eq (hrepeats : again.Repeats setting) : again.nodes = setting.nodes :=
  congrArg Prod.snd hrepeats.loadNodes_eq

end CompileSetting.Repeats

/-! ## The same report -/

/-- Two reports are on the same, but what came to its end in one order may have done so in
another. -/
structure GraphReport.Agrees (first second : GraphReport) : Prop where
  nodes : first.nodes.Perm second.nodes
  failed : first.failed.Perm second.failed
  unresolved : first.unresolved = second.unresolved

/-- Runs whose definitions end in the same way are reported alike. -/
theorem GraphReport.agrees_of_follows {extract : String → NameSet}
    {definitions : List NodeDefinition} {result : NodeDefinition → Except CompileError Node}
    (hnames : (definitions.map (·.name)).Nodup) {phase otherPhase : Schedule.Phase}
    {events otherEvents : List Schedule.Event} {schedule other : Schedule}
    (hrun : Schedule.Run (.ofDefinitions extract definitions) phase events schedule)
    (hother : Schedule.Run (.ofDefinitions extract definitions) otherPhase otherEvents other)
    (hfollows : Schedule.Follows result events)
    (hotherFollows : Schedule.Follows result otherEvents)
    (hover : schedule.IsOver) (hotherOver : other.IsOver) (unloaded : List FailedNode) :
    (ofSchedule unloaded schedule).Agrees (ofSchedule unloaded other) := by
  have hfinished : schedule.finishedSet = other.finishedSet :=
    (hrun.finished_isLeast hnames hfollows hover).unique
      (hother.finished_isLeast hnames hotherFollows hotherOver)
  have hsettled := hrun.settled hnames hfollows hover
  have hotherSettled := hother.settled hnames hotherFollows hotherOver
  rw [← hfinished] at hotherSettled
  constructor
  · simp only [ofSchedule, ← Schedule.map_snd_compiled]
    exact (hsettled.compiled.trans hotherSettled.compiled.symm).map _
  · exact ((hsettled.failures.trans hotherSettled.failures.symm).map _).append_left unloaded
  · simp only [ofSchedule, hsettled.unresolved, hotherSettled.unresolved]

namespace Compilation

variable {setting : CompileSetting σ γ} {names : Set String} {base catalog : Catalog}
  {forecast : Forecast σ} {phase : Schedule.Phase} {schedule : Schedule}
  {tasks : String → NodeTask σ} {session : Session}

/-- What has ended in a run that left a settled catalog has done so according to the verdicts. -/
theorem Compiles.exists_follows_verdict (hnodes : (setting.nodes.map (·.name)).Nodup)
    (hsettled : IsSettled setting names catalog)
    (hcompiles : Compiles setting forecast base (Session.start catalog).databasesByName phase
      schedule tasks session)
    (hview : session.view.nodes = catalog.nodes)
    (hwithin : ∀ definition ∈ schedule.started,
      Schedule.IsWithin setting.extract names definition) :
    ∃ events, Schedule.Run (.ofDefinitions setting.extract setting.nodes) phase events schedule ∧
      Schedule.Follows (verdict (Session.start catalog).databasesByName catalog) events := by
  obtain ⟨events, hrun, hended⟩ := hcompiles.run
  refine ⟨events, hrun, fun definition outcome hevent => ?_⟩
  have hconsistent := hrun.consistent hnodes
  have houtcome : (definition, outcome) ∈ schedule.outcomes := by
    rw [hconsistent.outcomes_eq]
    exact Schedule.mem_outcomesIn.mpr hevent
  have hstarted : definition ∈ schedule.started := hconsistent.outcome_started _ houtcome
  have hmem := hconsistent.started_mem definition hstarted
  have hstands := hcompiles.stands definition hmem
  rw [hended definition outcome hevent, hview] at hstands
  exact hstands.done_eq_verdict (hsettled.nodes definition hmem (hwithin definition hstarted))

/-! ## Two runs -/

variable {τ δ : Type} {again : CompileSetting τ δ} {current : Compilation σ}

theorem IsSettled.repeats (hsettled : IsSettled setting names catalog)
    (hrepeats : again.Repeats setting) : IsSettled again names catalog where
  databases := by
    rw [hrepeats.databases_eq]
    exact hsettled.databases
  nodes := by
    rw [hrepeats.nodes_eq, hrepeats.extract]
    exact hsettled.nodes
  closed := by
    rw [hrepeats.nodes_eq, hrepeats.extract]
    exact hsettled.closed

variable {environment : Environment σ} {last : Compilation σ} {store next : Store}

/-- A committed run that is younger than all definitions leaves a settled catalog. -/
theorem Commits.isSettled (hcommits : Commits setting environment last store next)
    (hdrivers : setting.drivers.KeepTime)
    (htimed : TimedRun setting (begin setting store.committed environment) last)
    (hdatabases : ∀ definition ∈ setting.databases, definition.modified ≤ environment.now)
    (hnodes : ∀ definition ∈ setting.nodes, definition.modified ≤ environment.now)
    {databases : KeyMap String Database}
    (hstage : last.stage = .compiling databases .looking schedule tasks) (hover : schedule.IsOver) :
    IsSettled setting schedule.finishedSet next.committed := by
  have hcompiles := (hcommits.sound (Forecast.silent_holds _ _)).stage
  rw [hstage] at hcompiles
  have hknown := hcommits.databasesByName_eq hstage
  refine isSettled_of_revised hcommits.revised ?_ ?_ ?_ ?_
  · intro time hduring definition hmem
    exact Instant.le_trans (hdatabases definition hmem) (hduring hdrivers htimed).1
  · intro time hduring definition hmem
    exact Instant.le_trans (hnodes definition hmem) (hduring hdrivers htimed).1
  · intro definition hmem hwithin
    rw [map_name_unresolved hstage, hcompiles.mem_unresolved_iff hcommits.nodes hover hmem]
    exact not_not_intro hwithin
  · rw [hknown]
    exact (hcompiles.finished_isLeast hcommits.nodes hover).1

/-- In the end of a run that leaves a settled catalog, all has ended according to the verdicts. -/
theorem exists_follows_of_over (hnodes : (setting.nodes.map (·.name)).Nodup)
    (hsettled : IsSettled setting names catalog) (hsound : Sound setting .silent base current)
    {databases : KeyMap String Database}
    (hstage : current.stage = .compiling databases phase schedule tasks)
    (hview : current.workspace.session.view.nodes = catalog.nodes)
    (hknown : (Session.start catalog).databasesByName = databases)
    (hclosed : Schedule.IsClosed setting.extract setting.nodes (verdict databases base) names) :
    ∃ events, Schedule.Run (.ofDefinitions setting.extract setting.nodes) phase events schedule ∧
      Schedule.Follows (verdict (Session.start catalog).databasesByName catalog) events := by
  have hcompiles := hsound.stage
  rw [hstage, ← hknown] at hcompiles
  rw [← hknown] at hclosed
  exact hcompiles.exists_follows_verdict hnodes hsettled hview fun definition hstarted =>
    hcompiles.isWithin_of_started hnodes hclosed hstarted

theorem Commits.nodup_again (hcommits : Commits setting environment last store next)
    (hrepeats : again.Repeats setting) :
    (again.databases.map (·.name)).Nodup ∧ (again.nodes.map (·.name)).Nodup := by
  rw [hrepeats.databases_eq, hrepeats.nodes_eq]
  exact ⟨hcommits.databases, hcommits.nodes⟩

/-- A run that is over and has changed nothing is reported as the run before it. -/
theorem Commits.agrees (hcommits : Commits setting environment last store next)
    {databases : KeyMap String Database}
    (hstage : last.stage = .compiling databases .looking schedule tasks) (hover : schedule.IsOver)
    (hsettled : IsSettled setting schedule.finishedSet next.committed)
    (hrepeats : again.Repeats setting) {current : Compilation τ}
    (hsound : Sound again .silent next.committed current)
    (hrest : AtRest again next.committed current) (hended : current.IsOver) :
    (last.graph setting).Agrees (current.graph again) := by
  obtain ⟨known, later, laterTasks, hlaterStage, hlaterOver⟩ := hended
  have hbefore := hcommits.sound (Forecast.silent_holds _ _)
  have hcompiles := hbefore.stage
  rw [hstage] at hcompiles
  obtain ⟨events, hevents, hfollows⟩ := exists_follows_of_over hcommits.nodes hsettled hbefore
    hstage (by rw [hcommits.committed_eq]; rfl) (hcommits.databasesByName_eq hstage)
    (hcompiles.finished_isLeast hcommits.nodes hover).1
  have hlaterCompiles := hsound.stage
  rw [hlaterStage] at hlaterCompiles
  have hknown : (Session.start next.committed).databasesByName = known := by
    rw [← hrest.session]
    exact hlaterCompiles.snapshot.symm
  have hagain := hsettled.repeats hrepeats
  obtain ⟨laterEvents, hlaterEvents, hlaterFollows⟩ :=
    exists_follows_of_over (hcommits.nodup_again hrepeats).2 hagain hsound hlaterStage
      (by rw [hrest.session]; rfl) hknown (hknown ▸ hagain.closed)
  rw [hrepeats.extract, hrepeats.nodes_eq] at hlaterEvents
  simp only [graph, hstage, hlaterStage, hrepeats.loadNodes_eq]
  exact GraphReport.agrees_of_follows hcommits.nodes hevents hlaterEvents hfollows hlaterFollows
    hover hlaterOver _

/-- Compiling again without edits changes nothing. If all definitions are older than a run that is
committed, then a run over the same definitions that begins on its catalog never changes anything,
whatever the surroundings and the drivers are by then, and never asks a driver, reads the clock or
makes an identifier. In the end its report is that of the run before, and when it is committed the
catalog is the same but for its version. -/
theorem rerun_changes_nothing {surroundings : Environment τ} {current : Compilation τ}
    (hcommits : Commits setting environment last store next)
    (hdrivers : setting.drivers.KeepTime)
    (htimed : TimedRun setting (begin setting store.committed environment) last)
    (hdatabases : ∀ definition ∈ setting.databases, definition.modified ≤ environment.now)
    (hnodes : ∀ definition ∈ setting.nodes, definition.modified ≤ environment.now)
    (hrepeats : again.Repeats setting)
    (hrun : Run again (begin again next.committed surroundings) current) :
    AtRest again next.committed current ∧
    (current.IsOver → (last.graph setting).Agrees (current.graph again)) ∧
    ∀ final, Commits again surroundings current next final →
      final.committed = { next.committed with version := next.committed.version + 1 } := by
  obtain ⟨databases, schedule, tasks, hstage, hover⟩ := hcommits.isOver
  have hsettled := hcommits.isSettled hdrivers htimed hdatabases hnodes hstage hover
  obtain ⟨hdistinct, hnames⟩ := hcommits.nodup_again hrepeats
  have hsound := hrun.sound hdistinct hnames (Forecast.silent_holds _ _)
    (sound_begin again next.committed surroundings)
  have hrest := hrun.atRest hdistinct hnames (hsettled.repeats hrepeats)
  refine ⟨hrest, hcommits.agrees hstage hover hsettled hrepeats hsound hrest, ?_⟩
  intro final hfinal
  rw [hfinal.committed_eq, hrest.session]
  rfl

/-- The shop with no driver left, so that no table could be probed. -/
def shopAgain : CompileSetting Sources Connection :=
  { shopProgram with drivers := Builtin.drivers [] }

theorem repeats_shop : shopAgain.Repeats shopProgram :=
  ⟨rfl, rfl, fun _ => rfl, fun _ _ _ => rfl, fun _ _ _ => rfl⟩

theorem exists_run_shopAgain (catalog : Catalog) : ∃ last : Compilation Sources,
    Run shopAgain (begin shopAgain catalog (shopSurroundings ⟨3, 0⟩ 9)) last ∧ last.IsOver := by
  have hdatabases : (shopAgain.databases.map (·.name)).Nodup := by decide +kernel
  have hnodes : (shopAgain.nodes.map (·.name)).Nodup := by decide +kernel
  have hfiles : (shopSurroundings ⟨3, 0⟩ 9).files = shopAgain.files := rfl
  obtain ⟨last, hrun, hover, -⟩ := exists_timedRun_compileNodes hdatabases hnodes
    (Forecast.silent_holds _ _) (Forecast.silent_keeps _) catalog hfiles trivial rfl
  exact ⟨last, hrun.run, hover⟩

/-- Nothing is probed when the shop is compiled again, and its nodes keep their columns. -/
theorem rerun_changes_nothing_shop : ∃ first second : Compilation Sources,
    Commits shopProgram (shopSurroundings ⟨2, 0⟩ 0) first shopStore shopCommitted.2.1 ∧
    Run shopAgain (begin shopAgain shopCommitted.2.1.committed (shopSurroundings ⟨3, 0⟩ 9)) second ∧
    second.IsOver ∧
    (shopCommitted.2.1.committed.nodes.entries.map fun entry =>
      (entry.1, entry.2.columns.map (·.name))) =
      [("orders", []), ("users", ["name"]), ("visits", ["day"])] ∧
    AtRest shopAgain shopCommitted.2.1.committed second ∧
    (first.graph shopProgram).Agrees (second.graph shopAgain) := by
  have hdatabases : ∀ definition ∈ shopProgram.databases,
      definition.modified ≤ (shopSurroundings ⟨2, 0⟩ 0).now := by
    decide +kernel
  have hnodes : ∀ definition ∈ shopProgram.nodes,
      definition.modified ≤ (shopSurroundings ⟨2, 0⟩ 0).now := by
    decide +kernel
  obtain ⟨first, hcommits, htimed⟩ := exists_commits_shop
  obtain ⟨second, hrun, hover⟩ := exists_run_shopAgain shopCommitted.2.1.committed
  obtain ⟨hrest, hagrees, -⟩ := rerun_changes_nothing hcommits (Builtin.drivers_keepTime _) htimed
    hdatabases hnodes repeats_shop hrun
  refine ⟨first, second, hcommits, hrun, hover, ?_, hrest, hagrees hover⟩
  decide +kernel

end Compilation

end MetricCatalog
