/-
# What a compile run comes to

A run that has come to its end has made the entries of certain definitions anew,
and left all others as they were. Which ones, and what they hold but for
identifiers and times, can be said from the files, the catalog at the beginning
and the answers of the probes. So two runs agree on it, whatever the order in
which their tasks went on.
-/

import MetricCatalog.Proofs.Compile.Interleaving

namespace MetricCatalog

/-! ## Catalogs that agree up to identifiers and times -/

/-- Two entries for a database of which some run found one stored, or none: both are left as it
was, or both are made anew from one definition, with an identifier and at a time of their own. -/
inductive Database.Alike (name : String) (stored : Option Database) :
    Option Database → Option Database → Prop
  | left : Alike name stored stored stored
  | made (config : DatabaseConfig) (id otherId : Uuid) (now otherNow : Instant) :
      Alike name stored (some (DatabaseTask.record name stored config id now))
        (some (DatabaseTask.record name stored config otherId otherNow))

/-- The same for a node. -/
inductive Node.Alike (name : String) (stored : Option Node) :
    Option Node → Option Node → Prop
  | left : Alike name stored stored stored
  | made {definition : NodeDefinition} (hname : definition.name = name)
      (found : List Representation) (columns : List Column) (id otherId : Uuid)
      (now otherNow : Instant) :
      Alike name stored (some (NodeTask.record definition stored found columns id now))
        (some (NodeTask.record definition stored found columns otherId otherNow))

/-- Two catalogs, made from one, that differ in the identifiers of what was made and in its
times at most. -/
structure Catalog.Alike (base first second : Catalog) : Prop where
  version : first.version = second.version
  queries : first.queries = second.queries
  databases : ∀ name, Database.Alike name (base.databases.find? name)
    (first.databases.find? name) (second.databases.find? name)
  nodes : ∀ name, Node.Alike name (base.nodes.find? name)
    (first.nodes.find? name) (second.nodes.find? name)

theorem Database.Alike.address_eq {name : String} {stored first second : Option Database}
    (halike : Database.Alike name stored first second) :
    first.map Database.address = second.map Database.address := by
  cases halike <;> rfl

theorem Becomes.cases {α : Type} {makes : (Uuid → Instant → α) → Prop}
    {stored first second : Option α} (hfirst : Becomes makes stored first)
    (hsecond : Becomes makes stored second) :
    (first = stored ∧ second = stored) ∨
      ∃ record other id otherId now otherNow, makes record ∧ makes other ∧
        first = some (record id now) ∧ second = some (other otherId otherNow) := by
  cases hfirst with
  | left hnone =>
      cases hsecond with
      | left => exact Or.inl ⟨rfl, rfl⟩
      | made hmakes => exact absurd hmakes (hnone _)
  | made hmakes id now =>
      cases hsecond with
      | left hnone => exact absurd hmakes (hnone _)
      | made hother otherId otherNow =>
          exact Or.inr ⟨_, _, id, otherId, now, otherNow, hmakes, hother, rfl, rfl⟩

theorem DatabaseTask.alike_of_becomes {definitions : List (Definition DatabaseConfig)}
    (hnames : (definitions.map (·.name)).Nodup) {name : String}
    {stored first second : Option Database}
    (hfirst : Becomes (Makes definitions stored name) stored first)
    (hsecond : Becomes (Makes definitions stored name) stored second) :
    Database.Alike name stored first second := by
  rcases hfirst.cases hsecond with ⟨rfl, rfl⟩ |
    ⟨_, _, id, otherId, now, otherNow, ⟨definition, hmem, rfl, -, rfl⟩,
      ⟨other, hother, hname, -, rfl⟩, rfl, rfl⟩
  · exact .left
  · obtain rfl := List.inj_on_of_nodup_map hnames hother hmem hname
    exact .made other.config id otherId now otherNow

theorem NodeTask.alike_of_becomes {definitions : List NodeDefinition}
    (hnames : (definitions.map (·.name)).Nodup) {started : NodeDefinition → Prop}
    {databases : KeyMap String Database} {columns : List Representation → List Column}
    {name : String} {stored first second : Option Node}
    (hfirst : Becomes (Makes definitions started databases
      (fun found merged => merged = columns found) stored name) stored first)
    (hsecond : Becomes (Makes definitions started databases
      (fun found merged => merged = columns found) stored name) stored second) :
    Node.Alike name stored first second := by
  rcases hfirst.cases hsecond with ⟨rfl, rfl⟩ |
    ⟨_, _, id, otherId, now, otherNow,
      ⟨definition, hmem, hname, -, -, found, _, hfound, rfl, rfl⟩,
      ⟨other, hother, hsame, -, -, otherFound, _, hotherFound, rfl, rfl⟩, rfl, rfl⟩
  · exact .left
  · obtain rfl := List.inj_on_of_nodup_map hnames hother hmem (hsame.trans hname.symm)
    rw [hfound] at hotherFound
    cases hotherFound
    exact .made hname found (columns found) id otherId now otherNow

/-! ## No flush fails -/

theorem exists_of_mapM_error {ε α β : Type} {f : α → Except ε β} {items : List α} {error : ε}
    (herror : items.mapM f = .error error) : ∃ item ∈ items, f item = .error error := by
  induction items with
  | nil => cases herror
  | cons item rest ih =>
      rw [List.mapM_cons] at herror
      cases hitem : f item with
      | error found =>
          rw [hitem] at herror
          cases herror
          exact ⟨item, List.mem_cons_self, hitem⟩
      | ok value =>
          cases hrest : rest.mapM f with
          | error found =>
              rw [hitem, hrest] at herror
              cases herror
              obtain ⟨other, hmem, hother⟩ := ih hrest
              exact ⟨other, List.mem_cons_of_mem _ hmem, hother⟩
          | ok values =>
              rw [hitem, hrest] at herror
              cases herror

/-- Only an unknown database keeps the representations of a definition from being found. -/
theorem NodeTask.exists_of_representations_error {databases : KeyMap String Database}
    {definition : NodeDefinition} {error : CompileError}
    (herror : representations databases definition = .error error) :
    ∃ database, error = .unknownDatabase definition.name database := by
  obtain ⟨⟨database, config⟩, -, hitem⟩ := exists_of_mapM_error herror
  simp only at hitem
  split at hitem
  · cases hitem
  · cases hitem
    exact ⟨database, rfl⟩

namespace Compilation

variable {σ γ : Type} {setting : CompileSetting σ γ} {base : Catalog} {forecast : Forecast σ}

theorem Sound.not_flushFailed {current : Compilation σ}
    (hnodes : (setting.nodes.map (·.name)).Nodup)
    (hsound : Sound setting forecast base current) : ¬ current.stage.FlushFailed := by
  have hstage := hsound.stage
  cases hcurrent : current.stage with
  | indexing tasks =>
      rw [hcurrent] at hstage
      rintro ⟨pair, hpair, error, herror⟩
      have htrack := hstage.tracks pair hpair
      unfold Tracks at htrack
      rw [herror] at htrack
      split at htrack <;> cases htrack
  | compiling databases phase schedule tasks =>
      rw [hcurrent] at hstage
      rintro ⟨name, error, herror⟩
      have hstarted : name ∈ schedule.startedNames := by
        by_contra hname
        rw [hstage.unstarted name hname] at herror
        cases herror
      obtain ⟨definition, hdefinition, rfl⟩ := List.mem_map.mp hstarted
      obtain ⟨events, hrun, -⟩ := hstage.run
      have hstands := hstage.stands definition
        ((hrun.consistent hnodes).started_mem definition hdefinition)
      rw [herror] at hstands
      generalize base.nodes.find? definition.name = stored at hstands
      generalize current.workspace.session.view.nodes.find? definition.name = entry at hstands
      cases hstands with
      | refused hold herror =>
          obtain ⟨database, hunknown⟩ := NodeTask.exists_of_representations_error herror
          cases hunknown

/-! ## The end of a run -/

section

variable {databases : KeyMap String Database} {schedule : Schedule} {tasks : String → NodeTask σ}
  {session : Session}

/-- In the end each definition whose dependencies have finished has ended, and the others have not
begun. -/
theorem Compiles.done_or_ready (hnames : (setting.nodes.map (·.name)).Nodup)
    (hcompiles : Compiles setting forecast base databases .looking schedule tasks session)
    (hover : schedule.IsOver) {definition : NodeDefinition} (hmem : definition ∈ setting.nodes) :
    (Schedule.IsWithin setting.extract schedule.finishedSet definition ∧
      ∃ result, tasks definition.name = .done result) ∨
    (¬ Schedule.IsWithin setting.extract schedule.finishedSet definition ∧
      tasks definition.name = .ready) := by
  obtain ⟨events, hrun, hended⟩ := hcompiles.run
  by_cases hwithin : Schedule.IsWithin setting.extract schedule.finishedSet definition
  · left
    have hstarted := (hrun.mem_started_iff hnames hover).mpr ⟨hmem, hwithin⟩
    obtain ⟨⟨other, result⟩, houtcome, rfl⟩ := List.mem_map.mp
      ((hrun.mem_map_outcomes_iff hnames hover).mpr hstarted)
    rw [(hrun.consistent hnames).outcomes_eq] at houtcome
    exact ⟨hwithin, result, hended _ _ (Schedule.mem_outcomesIn.mp houtcome)⟩
  · right
    refine ⟨hwithin, hcompiles.unstarted _ fun hname => hwithin ?_⟩
    exact (hrun.mem_startedNames_iff hnames hover hmem).mp hname

/-- In the end each node has become what its definition makes of it. -/
theorem Compiles.becomes (hnames : (setting.nodes.map (·.name)).Nodup)
    (hcompiles : Compiles setting forecast base databases .looking schedule tasks session)
    (hover : schedule.IsOver) (name : String) :
    Becomes (NodeTask.Makes setting.nodes
        (Schedule.IsWithin setting.extract schedule.finishedSet) databases
        (forecast.columns databases) (base.nodes.find? name) name)
      (base.nodes.find? name) (session.view.nodes.find? name) := by
  by_cases hname : name ∈ setting.nodes.map (·.name)
  · obtain ⟨definition, hmem, rfl⟩ := List.mem_map.mp hname
    have hstands := hcompiles.stands definition hmem
    generalize base.nodes.find? definition.name = stored at hstands ⊢
    generalize session.view.nodes.find? definition.name = entry at hstands ⊢
    rcases hcompiles.done_or_ready hnames hover hmem with
      ⟨hwithin, result, hdone⟩ | ⟨hwithin, hready⟩
    · rw [hdone] at hstands
      cases hstands with
      | @kept node hstored hcurrent =>
          refine .left ?_
          rintro record ⟨other, hother, hsame, -, hold, -⟩
          obtain rfl := List.inj_on_of_nodup_map hnames hother hmem hsame
          exact hold _ (by rw [hstored]; rfl) hcurrent
      | made hold hfound hcolumns id now =>
          exact .made ⟨definition, hmem, rfl, hwithin, hold, _, _, hfound, hcolumns, rfl⟩ id now
      | refused hold herror =>
          refine .left ?_
          rintro record ⟨other, hother, hsame, -, -, found, -, hfound, -⟩
          obtain rfl := List.inj_on_of_nodup_map hnames hother hmem hsame
          rw [hfound] at herror
          cases herror
    · rw [hready] at hstands
      cases hstands with
      | ready =>
          refine .left ?_
          rintro record ⟨other, hother, hsame, hstarted, -⟩
          obtain rfl := List.inj_on_of_nodup_map hnames hother hmem hsame
          exact hwithin hstarted
  · rw [hcompiles.others name hname]
    refine .left ?_
    rintro record ⟨definition, hmem, rfl, -⟩
    exact hname (List.mem_map_of_mem hmem)

end

/-! ## Which definitions are compiled -/

/-- How a definition ends, but for the columns of its node, the identifier and the time. -/
def verdict (databases : KeyMap String Database) (base : Catalog) (definition : NodeDefinition) :
    Except CompileError Node :=
  let stored := base.nodes.find? definition.name
  match stored.filter fun node => definition.modified ≤ node.updatedAt with
  | some node => .ok node
  | none => (NodeTask.representations databases definition).map fun found =>
      NodeTask.record definition stored found [] default ⟨0, 0⟩

theorem verdict_of_current {databases : KeyMap String Database} {definition : NodeDefinition}
    {node : Node} (hfound : base.nodes.find? definition.name = some node)
    (hcurrent : definition.modified ≤ node.updatedAt) :
    verdict databases base definition = .ok node := by
  simp [verdict, hfound, Option.filter, hcurrent]

theorem verdict_of_outdated {databases : KeyMap String Database} {definition : NodeDefinition}
    (hold : definition.IsOutdated ((base.nodes.find? definition.name).map (·.updatedAt))) :
    verdict databases base definition =
      (NodeTask.representations databases definition).map fun found =>
        NodeTask.record definition (base.nodes.find? definition.name) found [] default ⟨0, 0⟩ := by
  simp only [verdict, Definition.isOutdated_iff.mp hold]

/-- What has ended has done so according to the verdict. -/
theorem isOk_iff_verdict {databases : KeyMap String Database} {definition : NodeDefinition}
    {result : Except CompileError Node} {entry : Option Node}
    (hstands : NodeTask.Stands forecast databases definition
      (base.nodes.find? definition.name) (.done result) entry) :
    (∃ node, result = .ok node) ↔ ∃ node, verdict databases base definition = .ok node := by
  generalize hstored : base.nodes.find? definition.name = stored at hstands
  cases hstands with
  | kept hfound hcurrent => simp [verdict_of_current (hstored.trans hfound) hcurrent]
  | made hold hfound => simp [verdict_of_outdated (hstored ▸ hold), hfound, Except.map]
  | refused hold herror => simp [verdict_of_outdated (hstored ▸ hold), herror, Except.map]

theorem isClosed_congr {extract : String → NameSet} {definitions : List NodeDefinition}
    {first second : NodeDefinition → Except CompileError Node}
    (hsame : ∀ definition ∈ definitions,
      (∃ node, first definition = .ok node) ↔ ∃ node, second definition = .ok node)
    (names : Set String) :
    Schedule.IsClosed extract definitions first names ↔
      Schedule.IsClosed extract definitions second names :=
  forall₂_congr fun definition hmem => by rw [hsame definition hmem]

section

variable {databases : KeyMap String Database} {phase : Schedule.Phase} {schedule : Schedule}
  {tasks : String → NodeTask σ} {session : Session}

/-- How a definition has ended, or how it would. -/
def ending (databases : KeyMap String Database) (base : Catalog) (tasks : String → NodeTask σ)
    (definition : NodeDefinition) : Except CompileError Node :=
  (tasks definition.name).result?.getD (verdict databases base definition)

theorem Compiles.isOk_ending_iff
    (hcompiles : Compiles setting forecast base databases phase schedule tasks session)
    {definition : NodeDefinition} (hmem : definition ∈ setting.nodes) :
    (∃ node, ending databases base tasks definition = .ok node) ↔
      ∃ node, verdict databases base definition = .ok node := by
  have hstands := hcompiles.stands definition hmem
  unfold ending
  cases htask : tasks definition.name with
  | ready | reading => exact Iff.rfl
  | done result =>
      rw [htask] at hstands
      exact isOk_iff_verdict hstands

theorem Compiles.exists_follows
    (hcompiles : Compiles setting forecast base databases phase schedule tasks session) :
    ∃ events, Schedule.Run (.ofDefinitions setting.extract setting.nodes) phase events schedule ∧
      Schedule.Follows (ending databases base tasks) events := by
  obtain ⟨events, hrun, hended⟩ := hcompiles.run
  refine ⟨events, hrun, fun definition outcome hmem => ?_⟩
  rw [ending, hended definition outcome hmem]
  rfl

/-- What has finished in the end is told by the verdicts. -/
theorem Compiles.finished_isLeast (hnames : (setting.nodes.map (·.name)).Nodup)
    (hcompiles : Compiles setting forecast base databases phase schedule tasks session)
    (hover : schedule.IsOver) :
    IsLeast {names | Schedule.IsClosed setting.extract setting.nodes (verdict databases base) names}
      schedule.finishedSet := by
  obtain ⟨events, hrun, hfollows⟩ := hcompiles.exists_follows
  have hleast := hrun.finished_isLeast hnames hfollows hover
  simpa only [isClosed_congr fun definition hmem => hcompiles.isOk_ending_iff hmem] using hleast

/-- What is started depends on the names of each closed set only. -/
theorem Compiles.isWithin_of_started (hnames : (setting.nodes.map (·.name)).Nodup)
    (hcompiles : Compiles setting forecast base databases phase schedule tasks session)
    {names : Set String}
    (hclosed : Schedule.IsClosed setting.extract setting.nodes (verdict databases base) names)
    {definition : NodeDefinition} (hstarted : definition ∈ schedule.started) :
    Schedule.IsWithin setting.extract names definition := by
  obtain ⟨events, hrun, hfollows⟩ := hcompiles.exists_follows
  rw [← isClosed_congr fun definition hmem => hcompiles.isOk_ending_iff hmem] at hclosed
  intro dependency hdependency
  exact hrun.finished_subset hnames hfollows hclosed dependency
    (hrun.isWithin_of_started hnames hstarted dependency hdependency)

end

/-! ## Two runs -/

theorem mapValues_databasesByName {first second : Session}
    (haddress : first.view.databases.mapValues Database.address =
      second.view.databases.mapValues Database.address) :
    first.databasesByName.mapValues Database.address =
      second.databasesByName.mapValues Database.address := by
  have hplaces (session : Session) : session.databasesByName.mapValues Database.address =
      .ofList ((session.view.databases.mapValues Database.address).values.map fun place =>
        (place.1, place)) := by
    rw [Session.databasesByName, KeyMap.mapValues_ofList, KeyMap.values_mapValues, List.map_map,
      List.map_map]
    rfl
  rw [hplaces, hplaces, haddress]

theorem verdict_congr {first second : KeyMap String Database}
    (haddress : first.mapValues Database.address = second.mapValues Database.address)
    (base : Catalog) : verdict first base = verdict second base := by
  funext definition
  rw [verdict, verdict, NodeTask.representations_congr haddress]

theorem makes_congr {first second : KeyMap String Database}
    (haddress : first.mapValues Database.address = second.mapValues Database.address)
    (definitions : List NodeDefinition) (started : NodeDefinition → Prop) :
    NodeTask.Makes definitions started first = NodeTask.Makes definitions started second := by
  funext columns stored name made
  rw [NodeTask.Makes, NodeTask.Makes, NodeTask.representations_congr haddress]

theorem columns_congr {first second : KeyMap String Database}
    (haddress : first.mapValues Database.address = second.mapValues Database.address)
    (steady : Environment σ → Prop) (answer : Answering) :
    (Forecast.ofAnswers steady answer).columns first =
      (Forecast.ofAnswers steady answer).columns second := by
  funext found merged
  simp only [Forecast.ofAnswers, Forecast.columnsTold, Reading.expected_congr haddress]

/-- Two runs that have come to their end agree, but for identifiers and times. -/
theorem Sound.alike (hdatabases : (setting.databases.map (·.name)).Nodup)
    (hnodes : (setting.nodes.map (·.name)).Nodup) {answer : Answering}
    {first second : Compilation σ} (hfirst : Informed setting answer base first)
    (hsecond : Informed setting answer base second)
    (hover : first.IsOver) (hsecondOver : second.IsOver) :
    Catalog.Alike base first.workspace.session.view second.workspace.session.view := by
  obtain ⟨databases, schedule, tasks, hstage, hover⟩ := hover
  obtain ⟨others, otherSchedule, otherTasks, hotherStage, hotherOver⟩ := hsecondOver
  have hcompiles := hfirst.stage
  rw [hstage] at hcompiles
  have hother := hsecond.stage
  rw [hotherStage] at hother
  have halike : ∀ name, Database.Alike name (base.databases.find? name)
      (first.workspace.session.view.databases.find? name)
      (second.workspace.session.view.databases.find? name) := fun name =>
    DatabaseTask.alike_of_becomes hdatabases (hcompiles.indexed name) (hother.indexed name)
  have haddress : databases.mapValues Database.address = others.mapValues Database.address := by
    rw [hcompiles.snapshot, hother.snapshot]
    refine mapValues_databasesByName (KeyMap.ext_find? fun name => ?_)
    rw [KeyMap.find?_mapValues, KeyMap.find?_mapValues, (halike name).address_eq]
  have hfinished : schedule.finishedSet = otherSchedule.finishedSet := by
    have hleast := hcompiles.finished_isLeast hnodes hover
    rw [verdict_congr haddress] at hleast
    exact hleast.unique (hother.finished_isLeast hnodes hotherOver)
  refine ⟨?_, ?_, halike, fun name => ?_⟩
  · rw [hcompiles.version, hother.version]
  · rw [hcompiles.queries, hother.queries]
  · have hbecomes := hcompiles.becomes hnodes hover name
    have hotherBecomes := hother.becomes hnodes hotherOver name
    rw [← hfinished, ← makes_congr haddress, ← columns_congr haddress] at hotherBecomes
    exact NodeTask.alike_of_becomes hnodes hbecomes hotherBecomes

end Compilation

end MetricCatalog
