/-
# What one run may change

A run that is committed on the catalog it began on has left most of it as it
was. It has made anew what was out of date or missing, could be compiled and
was come to, from what the files say and at its own time. Nothing has
disappeared, and what was made anew is as old as it was before.
-/

import MetricCatalog.Proofs.Catalog.Replay
import MetricCatalog.Proofs.Compile.Undisturbed

namespace MetricCatalog

variable {σ γ : Type}

/-! ## The log of a run -/

section

variable {base : Catalog} {workspace : Workspace σ}

theorem Workspace.replays_change (workspace : Workspace σ) (mutation : Mutation)
    (hreplays : workspace.session.Replays base) :
    (workspace.change mutation).2.session.Replays base := by
  have hpushed : (workspace.session.push mutation).Replays base := hreplays
  exact hpushed.flush

theorem Workspace.replays_drop {α : Type} (existing : Option α) (mutation : Mutation)
    (hreplays : workspace.session.Replays base) :
    (existing.elim (.ok (), workspace) fun _ => workspace.change mutation).2.session.Replays
      base := by
  cases existing with
  | none => exact hreplays
  | some _ => exact workspace.replays_change mutation hreplays

theorem DatabaseTask.replays_step (root : Path) (task : DatabaseTask)
    (hreplays : workspace.session.Replays base) :
    (task.step root workspace).2.session.Replays base := by
  cases task with
  | found path =>
      simp only [step]
      split <;> exact hreplays
  | dated path name modified =>
      simp only [step]
      split
      · split <;> exact hreplays
      · exact hreplays
  | outdated path name existing =>
      simp only [step]
      split <;> exact hreplays
  | loaded name existing config =>
      simp only [step, replace_eq]
      have hdropped := Workspace.replays_drop existing (.dropDatabase name) hreplays
      generalize existing.elim (.ok (), workspace) (fun _ => workspace.change _) = dropped at *
      obtain ⟨result, middle⟩ := dropped
      cases result with
      | error error => exact hdropped
      | ok => exact middle.stamped.replays_change _ hdropped
  | done result => exact hreplays

theorem NodeTask.replays_settle (definition : NodeDefinition) (existing : Option Node)
    (found : List Representation) (readings : List (Reading (Environment σ)))
    (hreplays : workspace.session.Replays base) :
    (settle definition existing found readings workspace).2.session.Replays base := by
  unfold settle
  split
  · exact hreplays
  · exact workspace.stamped.replays_change _ hreplays

theorem NodeTask.replays_step (drivers : Drivers (Environment σ) γ)
    (databases : KeyMap String Database) (clock : Nat) (definition : NodeDefinition)
    (task : NodeTask σ) (hreplays : workspace.session.Replays base) :
    (task.step drivers databases clock definition workspace).2.session.Replays base := by
  cases task with
  | ready =>
      simp only [step]
      split
      · exact hreplays
      · split
        · exact hreplays
        · simp only [startReading_eq]
          have hdropped := Workspace.replays_drop (workspace.session.node? definition.name)
            (.dropNode definition.name) hreplays
          generalize Option.elim _ (.ok (), workspace) (fun _ => workspace.change _) = dropped at *
          obtain ⟨result, middle⟩ := dropped
          cases result with
          | error error => exact hdropped
          | ok => exact replays_settle definition _ _ _ hdropped
  | reading existing found readings => exact replays_settle definition _ _ _ hreplays
  | done result => exact hreplays

end

namespace Compilation

variable {setting : CompileSetting σ γ} {base : Catalog} {current next : Compilation σ}

theorem Step.replays (hstep : Step setting current next)
    (hreplays : current.workspace.session.Replays base) :
    next.workspace.session.Replays base := by
  cases hstep with
  | index _ _ hnext =>
      subst hnext
      exact DatabaseTask.replays_step _ _ hreplays
  | turn _ _ clock _ hnext =>
      subst hnext
      exact NodeTask.replays_step _ _ clock _ _ hreplays
  | load | start | complete => exact hreplays

/-- By induction on the run: what its session shows is what its log makes of the catalog. -/
theorem Run.replays (hrun : Run setting current next)
    (hreplays : current.workspace.session.Replays base) :
    next.workspace.session.Replays base := by
  induction hrun with
  | refl => exact hreplays
  | tail _ hstep ih => exact hstep.replays ih

end Compilation

/-! ## What is revised -/

/-- What becomes of the entries of a kind, given the definitions that load. An entry that is not
older than its definition is left, and so is the entry of a definition that is passed over. For all
other definitions entries are made, each in the place of the one that was there. An entry that no
definition is for is left. -/
structure KeyMap.Revised {α β : Type} (definitions : List (Definition α)) (updatedAt : β → Instant)
    (isPassed : Definition α → Prop) (renews : Definition α → Option β → β → Prop)
    (before after : KeyMap String β) : Prop where
  current : ∀ definition ∈ definitions, ∀ entry, before.find? definition.name = some entry →
    definition.modified ≤ updatedAt entry → after.find? definition.name = some entry
  passed : ∀ definition ∈ definitions, isPassed definition →
    after.find? definition.name = before.find? definition.name
  renewed : ∀ definition ∈ definitions, ¬ isPassed definition →
    definition.IsOutdated ((before.find? definition.name).map updatedAt) →
      ∃ entry, after.find? definition.name = some entry ∧
        renews definition (before.find? definition.name) entry
  others : ∀ name, name ∉ definitions.map (·.name) → after.find? name = before.find? name

/-- The database says what the definition says. It was made at a certain time, and first made when
the one in its place was, if there was one. -/
def DatabaseTask.Renews (during : Instant → Prop) (definition : Definition DatabaseConfig)
    (stored : Option Database) (made : Database) : Prop :=
  ∃ id now, during now ∧ made = record definition.name stored definition.config id now

/-- The same for a node, whatever its columns are. -/
def NodeTask.Renews (during : Instant → Prop) (definition : NodeDefinition)
    (stored : Option Node) (made : Node) : Prop :=
  ∃ columns id now, during now ∧
    made = record definition stored definition.config.representationsOf columns id now

/-- A node is passed over if its dependencies are not compiled, or if one of its databases is not
known. -/
def NodeTask.IsPassed (unresolved : List UnresolvedNode) (databases : KeyMap String Database)
    (definition : NodeDefinition) : Prop :=
  definition.name ∈ unresolved.map (·.name) ∨ ∃ database,
    representations databases definition = .error (.unknownDatabase definition.name database)

/-- What a run makes of a catalog, given the times at which it makes entries. -/
structure Catalog.Revised (setting : CompileSetting σ γ) (unresolved : List UnresolvedNode)
    (during : Instant → Prop) (before after : Catalog) : Prop where
  version : after.version = before.version + 1
  queries : after.queries = before.queries
  databases : before.databases.Revised setting.databases Database.updatedAt (fun _ => False)
    (DatabaseTask.Renews during) after.databases
  nodes : before.nodes.Revised setting.nodes Node.updatedAt
    (NodeTask.IsPassed unresolved (Session.start after).databasesByName)
    (NodeTask.Renews during) after.nodes

/-- All that was in a catalog is there later, and has been since the same time. -/
structure Catalog.Retained (before after : Catalog) : Prop where
  databases : ∀ name database, before.databases.find? name = some database →
    ∃ later, after.databases.find? name = some later ∧ later.createdAt = database.createdAt
  nodes : ∀ name node, before.nodes.find? name = some node →
    ∃ later, after.nodes.find? name = some later ∧ later.createdAt = node.createdAt
  queries : after.queries = before.queries

namespace Catalog

variable {first second third : Catalog}

theorem Retained.refl (catalog : Catalog) : catalog.Retained catalog :=
  ⟨fun _ database hfound => ⟨database, hfound, rfl⟩, fun _ node hfound => ⟨node, hfound, rfl⟩, rfl⟩

theorem Retained.trans (hfirst : first.Retained second) (hsecond : second.Retained third) :
    first.Retained third where
  databases := by
    intro name database hfound
    obtain ⟨middle, hmiddle, hsince⟩ := hfirst.databases name database hfound
    obtain ⟨last, hlast, hlater⟩ := hsecond.databases name middle hmiddle
    exact ⟨last, hlast, hlater.trans hsince⟩
  nodes := by
    intro name node hfound
    obtain ⟨middle, hmiddle, hsince⟩ := hfirst.nodes name node hfound
    obtain ⟨last, hlast, hlater⟩ := hsecond.nodes name middle hmiddle
    exact ⟨last, hlast, hlater.trans hsince⟩
  queries := hsecond.queries.trans hfirst.queries

end Catalog

/-- Whatever becomes of an entry, it is there, and has been since the same time. -/
theorem KeyMap.Revised.exists_later {α β : Type} {definitions : List (Definition α)}
    {updatedAt createdAt : β → Instant} {isPassed : Definition α → Prop}
    {renews : Definition α → Option β → β → Prop} {before after : KeyMap String β}
    (hrevised : before.Revised definitions updatedAt isPassed renews after)
    (hrenews : ∀ definition entry made, renews definition (some entry) made →
      createdAt made = createdAt entry) {name : String} {entry : β}
    (hfound : before.find? name = some entry) :
    ∃ later, after.find? name = some later ∧ createdAt later = createdAt entry := by
  by_cases hname : name ∈ definitions.map (·.name)
  · obtain ⟨definition, hmem, rfl⟩ := List.mem_map.mp hname
    by_cases hcurrent : definition.modified ≤ updatedAt entry
    · exact ⟨entry, hrevised.current definition hmem entry hfound hcurrent, rfl⟩
    · by_cases hpassed : isPassed definition
      · exact ⟨entry, (hrevised.passed definition hmem hpassed).trans hfound, rfl⟩
      · have hrenewed := hrevised.renewed definition hmem hpassed
        rw [hfound] at hrenewed
        obtain ⟨made, hmade, hdescribes⟩ :=
          hrenewed (by simpa [Definition.IsOutdated] using hcurrent)
        exact ⟨made, hmade, hrenews definition entry made hdescribes⟩
  · exact ⟨entry, (hrevised.others name hname).trans hfound, rfl⟩

theorem Catalog.Revised.retained {setting : CompileSetting σ γ} {unresolved : List UnresolvedNode}
    {during : Instant → Prop} {before after : Catalog}
    (hrevised : before.Revised setting unresolved during after) : before.Retained after where
  databases _ _ hfound := hrevised.databases.exists_later (by
    rintro definition entry _ ⟨id, now, -, rfl⟩
    rfl) hfound
  nodes _ _ hfound := hrevised.nodes.exists_later (by
    rintro definition entry _ ⟨columns, id, now, -, rfl⟩
    rfl) hfound
  queries := hrevised.queries

namespace Compilation

variable {setting : CompileSetting σ γ} {base : Catalog} {forecast : Forecast σ}
  {databases : KeyMap String Database} {phase : Schedule.Phase} {schedule : Schedule}
  {tasks : String → NodeTask σ} {session : Session} {during : Instant → Prop}
  {current : Compilation σ}

theorem Compiles.revised_databases (hdatabases : (setting.databases.map (·.name)).Nodup)
    (hcompiles : Compiles setting forecast base databases phase schedule tasks session)
    (htimes : ∀ definition ∈ setting.databases,
      definition.IsOutdated ((base.databases.find? definition.name).map (·.updatedAt)) →
        ∀ made, session.view.databases.find? definition.name = some made →
          during made.updatedAt) :
    base.databases.Revised setting.databases Database.updatedAt (fun _ => False)
      (DatabaseTask.Renews during) session.view.databases where
  current := by
    intro definition hmem entry hfound hcurrent
    have hbecomes := hcompiles.indexed definition.name
    rw [hfound] at hbecomes
    generalize session.view.databases.find? definition.name = found at hbecomes
    cases hbecomes with
    | left => rfl
    | made hmakes =>
        obtain ⟨other, hother, hname, hold, -⟩ := hmakes
        obtain rfl := List.inj_on_of_nodup_map hdatabases hother hmem hname
        exact absurd hcurrent (hold _ rfl)
  passed := fun _ _ hpassed => hpassed.elim
  renewed := by
    intro definition hmem _ hold
    have hbecomes := hcompiles.indexed definition.name
    have htime := htimes definition hmem hold
    generalize session.view.databases.find? definition.name = found at hbecomes htime
    cases hbecomes with
    | left hnone => exact absurd ⟨definition, hmem, rfl, hold, rfl⟩ (hnone _)
    | made hmakes id now =>
        obtain ⟨other, hother, hname, -, rfl⟩ := hmakes
        obtain rfl := List.inj_on_of_nodup_map hdatabases hother hmem hname
        exact ⟨_, rfl, id, now, htime _ rfl, rfl⟩
  others := by
    intro name hname
    have hbecomes := hcompiles.indexed name
    generalize session.view.databases.find? name = found at hbecomes
    cases hbecomes with
    | left => rfl
    | made hmakes =>
        obtain ⟨definition, hmem, rfl, -⟩ := hmakes
        exact absurd (List.mem_map_of_mem hmem) hname

/-- In the end a definition is not resolved if it was not started. -/
theorem Compiles.mem_unresolved_iff (hnodes : (setting.nodes.map (·.name)).Nodup)
    (hcompiles : Compiles setting forecast base databases phase schedule tasks session)
    (hover : schedule.IsOver) {definition : NodeDefinition} (hmem : definition ∈ setting.nodes) :
    definition.name ∈ schedule.unresolved.map (·.1.name) ↔
      ¬ Schedule.IsWithin setting.extract schedule.finishedSet definition := by
  obtain ⟨events, hrun, -⟩ := hcompiles.run
  rw [hrun.unresolved_eq hnodes hover, List.map_map]
  constructor
  · intro hname
    obtain ⟨other, hother, hsame⟩ := List.mem_map.mp hname
    obtain ⟨hnode, houtside⟩ := List.mem_filter.mp hother
    obtain rfl := List.inj_on_of_nodup_map hnodes hnode hmem hsame
    simpa using houtside
  · intro houtside
    exact List.mem_map_of_mem (List.mem_filter.mpr ⟨hmem, by simpa using houtside⟩)

/-- In the end the entry of a definition is left, because it is current or the definition is passed
over, or it has been made. -/
theorem Compiles.left_or_made (hnodes : (setting.nodes.map (·.name)).Nodup)
    (hcompiles : Compiles setting forecast base databases .looking schedule tasks session)
    (hover : schedule.IsOver) {unresolved : List UnresolvedNode}
    (hunresolved : unresolved.map (·.name) = schedule.unresolved.map (·.1.name))
    {definition : NodeDefinition} (hmem : definition ∈ setting.nodes) :
    (session.view.nodes.find? definition.name = base.nodes.find? definition.name ∧
      ((∃ node, base.nodes.find? definition.name = some node ∧
          definition.modified ≤ node.updatedAt) ∨
        NodeTask.IsPassed unresolved databases definition)) ∨
    (definition.IsOutdated ((base.nodes.find? definition.name).map (·.updatedAt)) ∧
      ¬ NodeTask.IsPassed unresolved databases definition ∧
      ∃ columns id now made,
        made = NodeTask.record definition (base.nodes.find? definition.name)
          definition.config.representationsOf columns id now ∧
        tasks definition.name = .done (.ok made) ∧
        session.view.nodes.find? definition.name = some made) := by
  have hwithin := hcompiles.mem_unresolved_iff hnodes hover hmem
  rw [← hunresolved] at hwithin
  have hstands := hcompiles.stands definition hmem
  generalize base.nodes.find? definition.name = stored at hstands ⊢
  generalize session.view.nodes.find? definition.name = entry at hstands ⊢
  rcases hcompiles.done_or_ready hnodes hover hmem with
    ⟨hstarted, result, hdone⟩ | ⟨hunstarted, hready⟩
  · rw [hdone] at hstands ⊢
    cases hstands with
    | kept hstored hcurrent => exact Or.inl ⟨rfl, Or.inl ⟨_, hstored, hcurrent⟩⟩
    | @made found merged hold hfound _ id now =>
        refine Or.inr ⟨hold, ?_, merged, id, now, _, ?_, rfl, rfl⟩
        · rintro (hname | ⟨database, hunknown⟩)
          · exact hwithin.mp hname hstarted
          · rw [hfound] at hunknown
            cases hunknown
        · rw [NodeTask.representations_eq hfound]
    | refused _ herror =>
        obtain ⟨database, rfl⟩ := NodeTask.exists_of_representations_error herror
        exact Or.inl ⟨rfl, Or.inr (Or.inr ⟨database, herror⟩)⟩
  · rw [hready] at hstands
    cases hstands with
    | ready => exact Or.inl ⟨rfl, Or.inr (Or.inl (hwithin.mpr hunstarted))⟩

theorem Compiles.revised_nodes (hnodes : (setting.nodes.map (·.name)).Nodup)
    (hcompiles : Compiles setting forecast base databases .looking schedule tasks session)
    (hover : schedule.IsOver) {unresolved : List UnresolvedNode}
    (hunresolved : unresolved.map (·.name) = schedule.unresolved.map (·.1.name))
    (htimes : ∀ definition ∈ setting.nodes,
      definition.IsOutdated ((base.nodes.find? definition.name).map (·.updatedAt)) →
        ∀ made, tasks definition.name = .done (.ok made) → during made.updatedAt) :
    base.nodes.Revised setting.nodes Node.updatedAt (NodeTask.IsPassed unresolved databases)
      (NodeTask.Renews during) session.view.nodes where
  current := by
    intro definition hmem entry hfound hcurrent
    rcases hcompiles.left_or_made hnodes hover hunresolved hmem with ⟨hleft, -⟩ | ⟨hold, -⟩
    · exact hleft.trans hfound
    · exact absurd hcurrent (hold _ (by rw [hfound]; rfl))
  passed := by
    intro definition hmem hpassed
    rcases hcompiles.left_or_made hnodes hover hunresolved hmem with ⟨hleft, -⟩ | ⟨-, hnot, -⟩
    · exact hleft
    · exact absurd hpassed hnot
  renewed := by
    intro definition hmem hnot hold
    rcases hcompiles.left_or_made hnodes hover hunresolved hmem with
      ⟨-, ⟨node, hnode, hcurrent⟩ | hpassed⟩ | ⟨-, -, columns, id, now, made, hmade, hdone, hentry⟩
    · exact absurd hcurrent (hold _ (by rw [hnode]; rfl))
    · exact absurd hpassed hnot
    · refine ⟨made, hentry, columns, id, now, ?_, hmade⟩
      have htime := htimes definition hmem hold made hdone
      rw [hmade] at htime
      exact htime
  others := hcompiles.others

/-! ## Runs that are committed -/

/-- A run over a repository whose definitions have different names has begun on the catalog of a
store and come to its end, and its changes have been committed on the same catalog. -/
structure Commits (setting : CompileSetting σ γ) (environment : Environment σ)
    (last : Compilation σ) (store next : Store) : Prop where
  databases : (setting.databases.map (·.name)).Nodup
  nodes : (setting.nodes.map (·.name)).Nodup
  run : Run setting (begin setting store.committed environment) last
  isOver : last.IsOver
  commit : ∃ before after : Environment σ,
    store.commit last.workspace.session before = (.ok next.committed, next, after)

/-- The times that lie within a run, if the clock does not go back in it. -/
def During (setting : CompileSetting σ γ) (first last : Compilation σ) (time : Instant) : Prop :=
  setting.drivers.KeepTime → TimedRun setting first last → time.IsWithin first.now last.now

/-- The store after a run of some program over some repository. -/
def Reaches (store next : Store) : Prop :=
  ∃ (σ γ : Type) (setting : CompileSetting σ γ) (environment : Environment σ)
    (last : Compilation σ), Commits setting environment last store next

variable {environment : Environment σ} {last : Compilation σ} {store next : Store}

/-- The commit of a run puts in place what its session shows, as the next version, or nothing. -/
theorem publishes_of_run (hdatabases : (setting.databases.map (·.name)).Nodup)
    (hnodes : (setting.nodes.map (·.name)).Nodup)
    (hrun : Run setting (begin setting store.committed environment) last)
    (before : Environment σ) :
    store.Publishes last.workspace.session.published
      (store.commit last.workspace.session before).1
      (store.commit last.workspace.session before).2.1 := by
  have hflushed := (hrun.sound hdatabases hnodes (Forecast.silent_holds _ _)
    (sound_begin setting store.committed environment)).flushed
  have hreplays : last.workspace.session.Replays store.committed := hrun.replays rfl
  have hflush := Session.flush_of_flushed hflushed
  have hok : last.workspace.session.flush.1 = .ok () := by rw [hflush]
  rw [Store.commit_of_flush_ok hok, hflush]
  exact (Store.commitLog_publishes (Store.replay_eq_published hreplays) before).1

theorem Commits.sound (hcommits : Commits setting environment last store next)
    (hforecast : forecast.Holds setting.drivers setting.steady) :
    Sound setting forecast store.committed last :=
  hcommits.run.sound hcommits.databases hcommits.nodes hforecast
    (sound_begin setting store.committed environment)

theorem Commits.committed_eq (hcommits : Commits setting environment last store next) :
    next.committed = last.workspace.session.published := by
  obtain ⟨before, after, hcommit⟩ := hcommits.commit
  have hpublishes := publishes_of_run hcommits.databases hcommits.nodes hcommits.run before
  rw [hcommit] at hpublishes
  rcases hpublishes with ⟨hresult, -⟩ | ⟨storage, error, -, hresult, -⟩
  · exact Except.ok.inj hresult
  · cases hresult

/-- A run of the program that is committed is one of these, and the clock does not go back between
its steps. -/
theorem exists_commits_of_compile (hdatabases : (setting.databases.map (·.name)).Nodup)
    (hnodes : (setting.nodes.map (·.name)).Nodup)
    (hforecast : forecast.Holds setting.drivers setting.steady)
    (hkeeps : forecast.Keeps setting.drivers setting.steady)
    (hfiles : environment.files = setting.files) (hsteady : setting.steady environment)
    {report : CompileReport} {after : Environment σ}
    (hcompile : Repository.compile setting.drivers setting.extract setting.root store environment =
      (.ok report, next, after)) :
    ∃ last, Commits setting environment last store next ∧
      TimedRun setting (begin setting store.committed environment) last ∧
      last.graph setting = report.graph := by
  obtain ⟨last, hrun, hover, hcompiled⟩ := exists_timedRun_compileNodes hdatabases hnodes
    hforecast hkeeps store.committed hfiles hsteady rfl
  have hpublishes := publishes_of_run hdatabases hnodes hrun.run last.workspace.environment
  simp only [Repository.compile, Store.begin, ← hcompiled] at hcompile
  rcases hcommit : store.commit last.workspace.session last.workspace.environment with
    ⟨result, found, later⟩
  rw [hcommit] at hcompile hpublishes
  rcases hpublishes with ⟨rfl, rfl⟩ | ⟨storage, error, -, rfl, -⟩
  · simp only [Except.map, Prod.mk.injEq, Except.ok.injEq] at hcompile
    obtain ⟨rfl, rfl, rfl⟩ := hcompile
    exact ⟨last, ⟨hdatabases, hnodes, hrun.run, hover, _, _, hcommit⟩, hrun, rfl⟩
  · simp [Except.map] at hcompile

theorem map_name_unresolved (hstage : current.stage = .compiling databases phase schedule tasks) :
    (current.graph setting).unresolved.map (·.name) = schedule.unresolved.map (·.1.name) := by
  simp only [graph, hstage, GraphReport.ofSchedule, List.map_map]
  rfl

theorem Commits.databasesByName_eq (hcommits : Commits setting environment last store next)
    (hstage : last.stage = .compiling databases phase schedule tasks) :
    (Session.start next.committed).databasesByName = databases := by
  have hcompiles := (hcommits.sound (Forecast.silent_holds _ _)).stage
  rw [hstage] at hcompiles
  rw [hcommits.committed_eq]
  exact hcompiles.snapshot.symm

theorem Commits.revised (hcommits : Commits setting environment last store next) :
    Catalog.Revised setting (last.graph setting).unresolved
      (During setting (begin setting store.committed environment) last)
      store.committed next.committed := by
  obtain ⟨databases, schedule, tasks, hstage, hover⟩ := hcommits.isOver
  have hcompiles := (hcommits.sound (Forecast.silent_holds _ _)).stage
  rw [hstage] at hcompiles
  have htimely (hdrivers : setting.drivers.KeepTime)
      (hrun : TimedRun setting (begin setting store.committed environment) last) :
      Timely setting store.committed environment.now last :=
    hrun.timely hcommits.databases hcommits.nodes hdrivers
      (sound_begin setting store.committed environment)
      (timely_begin setting store.committed environment)
  have hstaged (hdrivers : setting.drivers.KeepTime)
      (hrun : TimedRun setting (begin setting store.committed environment) last) :=
    (htimely hdrivers hrun).stage
  simp only [hstage] at hstaged
  have hcommitted := hcommits.committed_eq
  constructor
  case version => rw [hcommitted, Session.published, hcompiles.version]
  case queries =>
    rw [hcommitted]
    exact hcompiles.queries
  case databases =>
    rw [hcommitted]
    refine hcompiles.revised_databases hcommits.databases ?_
    exact fun definition hmem hold made hmade hdrivers hrun =>
      (hstaged hdrivers hrun).1 definition hmem hold made hmade
  case nodes =>
    rw [hcommits.databasesByName_eq hstage, hcommitted]
    refine hcompiles.revised_nodes hcommits.nodes hover (map_name_unresolved hstage) ?_
    exact fun definition hmem hold made hdone hdrivers hrun =>
      (hstaged hdrivers hrun).2 definition hmem hold made hdone

/-- By induction on the runs. -/
theorem retained_of_reaches {first : Store} (hruns : Relation.ReflTransGen Reaches first store) :
    first.committed.Retained store.committed := by
  induction hruns with
  | refl => exact .refl _
  | tail _ hreaches ih =>
      obtain ⟨_, _, _, _, _, hcommits⟩ := hreaches
      exact ih.trans hcommits.revised.retained

/-- What one run may change: it is revised by the definitions, at the times of the run, and nothing
that any run before has left in the catalog is gone, or is younger than it was. -/
theorem run_revises (hcommits : Commits setting environment last store next) :
    Catalog.Revised setting (last.graph setting).unresolved
        (During setting (begin setting store.committed environment) last)
        store.committed next.committed ∧
      ∀ first : Store, Relation.ReflTransGen Reaches first store →
        first.committed.Retained next.committed :=
  ⟨hcommits.revised, fun _ hruns => (retained_of_reaches hruns).trans hcommits.revised.retained⟩

/-- The shop with nothing said of its tables. -/
def shopProgram : CompileSetting Sources Connection := { shopSetting with steady := fun _ => True }

def shopStore : Store := ⟨shopCatalog, none⟩

/-- The run of the program. -/
def shopCommitted : Except StoreError CompileReport × Store × Builtin.Surroundings :=
  Repository.compile shopProgram.drivers shopProgram.extract shopProgram.root shopStore
    (shopSurroundings ⟨2, 0⟩ 0)

theorem exists_eq_ok {ε α β δ : Type} {outcome : Except ε α × β × δ}
    (hok : outcome.1.toOption.isSome = true) :
    ∃ value, outcome = (.ok value, outcome.2.1, outcome.2.2) := by
  obtain ⟨result, store, rest⟩ := outcome
  cases result with
  | error error => cases hok
  | ok value => exact ⟨value, rfl⟩

theorem exists_commits_shop : ∃ last : Compilation Sources,
    Commits shopProgram (shopSurroundings ⟨2, 0⟩ 0) last shopStore shopCommitted.2.1 ∧
    TimedRun shopProgram (begin shopProgram shopCatalog (shopSurroundings ⟨2, 0⟩ 0)) last := by
  have hdatabases : (shopProgram.databases.map (·.name)).Nodup := by decide +kernel
  have hnodes : (shopProgram.nodes.map (·.name)).Nodup := by decide +kernel
  have hok : shopCommitted.1.toOption.isSome = true := by decide +kernel
  obtain ⟨report, hcompile⟩ := exists_eq_ok hok
  obtain ⟨last, hcommits, htimed, -⟩ := exists_commits_of_compile hdatabases hnodes
    (Forecast.silent_holds _ _) (Forecast.silent_keeps _) rfl trivial hcompile
  exact ⟨last, hcommits, htimed⟩

/-- The program makes two nodes that were missing, and one that was out of date: it is made anew at
the time of the run, and is as old as it was. -/
theorem run_revises_shop : ∃ last : Compilation Sources,
    Commits shopProgram (shopSurroundings ⟨2, 0⟩ 0) last shopStore shopCommitted.2.1 ∧
    shopProgram.drivers.KeepTime ∧
    TimedRun shopProgram (begin shopProgram shopCatalog (shopSurroundings ⟨2, 0⟩ 0)) last ∧
    (shopCommitted.2.1.committed.nodes.entries.map fun entry =>
      (entry.1, entry.2.createdAt, entry.2.updatedAt)) =
      [("orders", ⟨2, 3000⟩, ⟨2, 3000⟩), ("users", ⟨0, 0⟩, ⟨2, 2000⟩),
        ("visits", ⟨2, 1000⟩, ⟨2, 1000⟩)] ∧
    Catalog.Revised shopProgram (last.graph shopProgram).unresolved
      (During shopProgram (begin shopProgram shopCatalog (shopSurroundings ⟨2, 0⟩ 0)) last)
      shopCatalog shopCommitted.2.1.committed ∧
    shopCatalog.Retained shopCommitted.2.1.committed := by
  obtain ⟨last, hcommits, htimed⟩ := exists_commits_shop
  obtain ⟨hrevised, hretained⟩ := run_revises hcommits
  refine ⟨last, hcommits, Builtin.drivers_keepTime _, htimed, ?_, hrevised,
    hretained shopStore .refl⟩
  decide +kernel

end Compilation

end MetricCatalog
