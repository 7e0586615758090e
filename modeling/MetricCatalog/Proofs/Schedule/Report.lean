/-
# One entry for each definition

The report of a run that came to its end has one entry for each definition that
was found: its node, the complaint that it does not load or compile, or the
dependencies it misses. Which entry that is does not depend on the order in which
the nodes ended, so neither does the report, up to the order of its entries.
-/

import Mathlib.Data.Set.Lattice
import MetricCatalog.Proofs.Schedule.Jobs

namespace MetricCatalog

/-- What a report says of a definition. -/
inductive ReportEntry
  | compiled (node : Node)
  /-- The complaint that it does not load or compile. -/
  | failed (failed : FailedNode)
  /-- The dependencies it misses. -/
  | unresolved (unresolved : UnresolvedNode)

/-- All entries of a report. -/
def GraphReport.entries (report : GraphReport) : List ReportEntry :=
  report.nodes.map .compiled ++ report.failed.map .failed ++ report.unresolved.map .unresolved

namespace Schedule

/-- The entry of a definition that ended. -/
def entryOfResult (definition : NodeDefinition) : Except CompileError Node → ReportEntry
  | .ok node => .compiled node
  | .error error => .failed ⟨definition.name, error.message⟩

open Classical in
/-- The entry of a definition that was loaded, given the names that compile. -/
noncomputable def entryOf (extract : String → NameSet)
    (result : NodeDefinition → Except CompileError Node) (names : Set String)
    (definition : NodeDefinition) : ReportEntry :=
  if IsWithin extract names definition then entryOfResult definition (result definition)
  else .unresolved ⟨definition.name, (upstream extract definition).filter (· ∉ names)⟩

/-- The entry of a definition that was found at a path. -/
noncomputable def entryAt (extract : String → NameSet)
    (result : NodeDefinition → Except CompileError Node) (names : Set String) (files : FileTree)
    (root path : Path) : ReportEntry :=
  match Repository.loadNode files root path with
  | .ok definition => entryOf extract result names definition
  | .error failed => .failed failed

/-- When each item has its label in one of two sortings only, the two make up all labels. -/
theorem perm_filterMap_append {α γ : Type} {items : List α} {first second : α → Option γ}
    {label : α → γ}
    (hsorted : ∀ item ∈ items, first item = some (label item) ∧ second item = none ∨
      first item = none ∧ second item = some (label item)) :
    (items.filterMap first ++ items.filterMap second).Perm (items.map label) := by
  induction items with
  | nil => exact List.Perm.refl _
  | cons item rest ih =>
      have hrest := ih fun other hother => hsorted other (List.mem_cons_of_mem _ hother)
      rw [List.filterMap_cons, List.filterMap_cons, List.map_cons]
      rcases hsorted item List.mem_cons_self with ⟨hfirst, hsecond⟩ | ⟨hfirst, hsecond⟩
      · rw [hfirst, hsecond]
        exact hrest.cons _
      · rw [hfirst, hsecond]
        exact List.perm_middle.trans (hrest.cons _)

/-! ## The entries of a report -/

section

variable {extract : String → NameSet} {definitions : List NodeDefinition}
  {result : NodeDefinition → Except CompileError Node} {names : Set String} {schedule : Schedule}

theorem entryOf_of_isWithin {definition : NodeDefinition}
    (hwithin : IsWithin extract names definition) :
    entryOf extract result names definition = entryOfResult definition (result definition) :=
  if_pos hwithin

open Classical in
theorem entryOf_of_not_isWithin {definition : NodeDefinition}
    (hwithin : ¬ IsWithin extract names definition) :
    entryOf extract result names definition =
      .unresolved ⟨definition.name, (upstream extract definition).filter (· ∉ names)⟩ :=
  if_neg hwithin

open Classical in
/-- The definitions that ended make up the entries of those that depend on the names only. -/
theorem Settled.ended_perm (hsettled : Settled extract definitions result names schedule) :
    (schedule.compiled.map (fun ended => entryOfResult ended.1 (.ok ended.2)) ++
      schedule.failures.map (fun ended => entryOfResult ended.1 (.error ended.2))).Perm
    ((definitions.filter (IsWithin extract names ·)).map (entryOf extract result names)) := by
  refine ((hsettled.compiled.map _).append (hsettled.failures.map _)).trans ?_
  rw [List.map_filterMap, List.map_filterMap]
  refine perm_filterMap_append fun definition hmem => ?_
  rw [entryOf_of_isWithin (of_decide_eq_true (List.mem_filter.mp hmem).2)]
  cases hresult : result definition with
  | ok node => exact Or.inl ⟨rfl, rfl⟩
  | error error => exact Or.inr ⟨rfl, rfl⟩

/-- The report has the entries of the definitions, next to those that did not load. -/
theorem Settled.entries_perm (hsettled : Settled extract definitions result names schedule)
    (unloaded : List FailedNode) :
    (GraphReport.ofSchedule unloaded schedule).entries.Perm
      (definitions.map (entryOf extract result names) ++ unloaded.map .failed) := by
  classical
  have hunresolved :
      schedule.unresolved.map (fun left => ReportEntry.unresolved ⟨left.1.name, left.2⟩) =
      (definitions.filter (¬ IsWithin extract names ·)).map (entryOf extract result names) := by
    rw [hsettled.unresolved, List.map_map]
    refine List.map_congr_left fun definition hmem => ?_
    rw [entryOf_of_not_isWithin (of_decide_eq_true (List.mem_filter.mp hmem).2)]
    rfl
  have hsplit : (definitions.filter (IsWithin extract names ·) ++
      definitions.filter (¬ IsWithin extract names ·)).Perm definitions := by
    simpa only [decide_not] using
      List.filter_append_perm (fun definition => decide (IsWithin extract names definition))
        definitions
  have hdefinitions := (hsettled.ended_perm.append_right _).trans
    ((List.Perm.of_eq (List.map_append).symm).trans (hsplit.map (entryOf extract result names)))
  refine List.Perm.trans ?_ (hdefinitions.append_right _)
  rw [← hunresolved]
  simp only [GraphReport.entries, GraphReport.ofSchedule, List.map_append, List.map_map,
    ← map_snd_compiled, Function.comp_def, List.append_assoc, entryOfResult]
  refine List.Perm.append_left _ ?_
  exact List.perm_append_comm.trans (.of_eq (List.append_assoc _ _ _))

/-- The definitions that were loaded and those that were not make up all that were found. -/
theorem perm_entryAt {files : FileTree} {root : Path} {unloaded : List FailedNode}
    (hloaded : Repository.loadNodes files root = (unloaded, definitions)) :
    (definitions.map (entryOf extract result names) ++ unloaded.map ReportEntry.failed).Perm
      ((Definition.discover files root .node).map
        (entryAt extract result names files root)) := by
  obtain ⟨rfl, rfl⟩ := Prod.mk.inj hloaded
  rw [List.map_filterMap, List.map_filterMap, List.filterMap_map, List.filterMap_map]
  refine perm_filterMap_append fun path _ => ?_
  simp only [Function.comp_apply, entryAt]
  cases Repository.loadNode files root path with
  | ok definition => exact Or.inl ⟨rfl, rfl⟩
  | error failed => exact Or.inr ⟨rfl, rfl⟩

/-! ## Every run comes to its end -/

/-- There is a least closed set: the names that are in all closed sets. -/
theorem isLeast_sInter_isClosed (extract : String → NameSet) (definitions : List NodeDefinition)
    (result : NodeDefinition → Except CompileError Node) :
    IsLeast {names | IsClosed extract definitions result names}
      (⋂₀ {names | IsClosed extract definitions result names}) := by
  constructor
  · intro definition hmem hcompiles hwithin names hclosed
    refine hclosed definition hmem hcompiles fun dependency hdependency => ?_
    exact hwithin dependency hdependency names hclosed
  · intro names hclosed name hname
    exact hname names hclosed

theorem Follows.concat {events : List Event} (hfollows : Follows result events)
    (definition : NodeDefinition) :
    Follows result (events ++ [.ended definition (result definition)]) := by
  intro other outcome hmem
  rcases List.mem_append.mp hmem with hold | hnew
  · exact hfollows other outcome hold
  · cases List.mem_singleton.mp hnew
    rfl

theorem Follows.append_started {events : List Event} (hfollows : Follows result events)
    (batch : List NodeDefinition) : Follows result (events ++ batch.map .started) := by
  intro other outcome hmem
  rcases List.mem_append.mp hmem with hold | hnew
  · exact hfollows other outcome hold
  · obtain ⟨definition, -, hevent⟩ := List.mem_map.mp hnew
    cases hevent

/-- While the loop waits, there is something to wait for. -/
theorem Run.exists_inFlight_of_waiting (hnames : (definitions.map (·.name)).Nodup)
    {events : List Event}
    (hrun : Run (ofDefinitions extract definitions) .waiting events schedule) :
    ∃ definition, definition ∈ schedule.inFlight := by
  cases hrun with
  | start prior hopen => exact prior.exists_inFlight hnames hopen

/-- A run that looks for what is ready goes on to its end. The induction is on the number of
definitions that may still end. -/
theorem Run.exists_isOver_of_looking (hnames : (definitions.map (·.name)).Nodup)
    {events : List Event} (hrun : Run (ofDefinitions extract definitions) .looking events schedule)
    (hfollows : Follows result events) :
    ∃ more last, Run (ofDefinitions extract definitions) .looking (events ++ more) last ∧
      Follows result (events ++ more) ∧ last.IsOver := by
  induction hleft : definitions.length - schedule.outcomes.length using Nat.strong_induction_on
    generalizing events schedule with
  | _ left ih =>
      by_cases hover : schedule.IsOver
      · exact ⟨[], schedule, by simpa using hrun, by simpa using hfollows, hover⟩
      · obtain ⟨definition, hflight⟩ := hrun.exists_inFlight hnames hover
        have hnext := (hrun.start hover).complete hflight (result definition)
        have hbound := hnext.length_outcomes_le hnames
        have hlength : (schedule.start.complete definition (result definition)).outcomes.length =
            schedule.outcomes.length + 1 := List.length_append
        obtain ⟨more, last, hlast, hfollowsLast, hend⟩ := ih _ (by omega) hnext
          ((hfollows.append_started _).concat definition) rfl
        rw [List.append_assoc, List.append_assoc] at hlast hfollowsLast
        exact ⟨_, last, hlast, hfollowsLast, hend⟩

theorem Run.exists_isOver (hnames : (definitions.map (·.name)).Nodup) {phase : Phase}
    {events : List Event} (hrun : Run (ofDefinitions extract definitions) phase events schedule)
    (hfollows : Follows result events) :
    ∃ more last, Run (ofDefinitions extract definitions) .looking (events ++ more) last ∧
      Follows result (events ++ more) ∧ last.IsOver := by
  cases phase with
  | looking => exact hrun.exists_isOver_of_looking hnames hfollows
  | waiting =>
      obtain ⟨definition, hflight⟩ := hrun.exists_inFlight_of_waiting hnames
      obtain ⟨more, last, hlast, hfollowsLast, hend⟩ :=
        (hrun.complete hflight (result definition)).exists_isOver_of_looking hnames
          (hfollows.concat definition)
      rw [List.append_assoc] at hlast hfollowsLast
      exact ⟨_, last, hlast, hfollowsLast, hend⟩

/-- In every run each definition ends in one way, so some settled results describe it. -/
theorem Run.exists_follows (hnames : (definitions.map (·.name)).Nodup) {phase : Phase}
    {events : List Event} (hrun : Run (ofDefinitions extract definitions) phase events schedule) :
    ∃ result, Follows result events := by
  classical
  have hconsistent := hrun.consistent hnames
  refine ⟨fun definition =>
    if hended : ∃ outcome, .ended definition outcome ∈ events then hended.choose
    else .error (.unknownDatabase definition.name ""), fun definition outcome hmem => ?_⟩
  have hended : ∃ outcome, .ended definition outcome ∈ events := ⟨outcome, hmem⟩
  have hfirst : (definition, outcome) ∈ schedule.outcomes :=
    hconsistent.outcomes_eq ▸ mem_outcomesIn.mpr hmem
  have hsecond : (definition, hended.choose) ∈ schedule.outcomes :=
    hconsistent.outcomes_eq ▸ mem_outcomesIn.mpr hended.choose_spec
  have hsame := List.inj_on_of_nodup_map hconsistent.ended_nodup hfirst hsecond rfl
  simp only [dif_pos hended]
  exact congrArg Prod.snd hsame

/-- With settled results there is a least set of names that compile, and for every run: no more
definitions end than there are, the run goes on to an end, and in the end the least set tells what
was compiled, what failed and what misses which dependencies. The report has one entry for each
path of a definition, and which one it is depends on the least set only. -/
theorem run_outcome (extract : String → NameSet) {definitions : List NodeDefinition}
    (hnames : (definitions.map (·.name)).Nodup)
    (result : NodeDefinition → Except CompileError Node) :
    ∃ names, IsLeast {names | IsClosed extract definitions result names} names ∧
      ∀ phase events schedule, Run (ofDefinitions extract definitions) phase events schedule →
        Follows result events →
        schedule.outcomes.length ≤ definitions.length ∧
        (∃ more last, Run (ofDefinitions extract definitions) .looking (events ++ more) last ∧
          Follows result (events ++ more) ∧ last.IsOver) ∧
        (schedule.IsOver → Settled extract definitions result names schedule ∧
          ∀ files root unloaded, Repository.loadNodes files root = (unloaded, definitions) →
            (GraphReport.ofSchedule unloaded schedule).entries.Perm
              ((Definition.discover files root .node).map
                (entryAt extract result names files root))) := by
  have hleast := isLeast_sInter_isClosed extract definitions result
  refine ⟨_, hleast, fun phase events schedule hrun hfollows => ?_⟩
  refine ⟨hrun.length_outcomes_le hnames, hrun.exists_isOver hnames hfollows, fun hover => ?_⟩
  have hsettled := hrun.settled hnames hfollows hover
  rw [(hrun.finished_isLeast hnames hfollows hover).unique hleast] at hsettled
  refine ⟨hsettled, fun files root unloaded hloaded => ?_⟩
  exact (hsettled.entries_perm unloaded).trans (perm_entryAt hloaded)

/-- Each of the plain definitions compiles. -/
def plainResult (definition : NodeDefinition) : Except CompileError Node :=
  .ok (plainNode definition.name definition.config.expression)

theorem run_outcome_plainDefinitions :
    (plainDefinitions.map (·.name)).Nodup ∧
    ∃ names, IsLeast {names | IsClosed plainExtract plainDefinitions plainResult names} names ∧
      ∃ events schedule,
        Run (ofDefinitions plainExtract plainDefinitions) .looking events schedule ∧
        schedule.IsOver ∧ Settled plainExtract plainDefinitions plainResult names schedule := by
  have hnames : (plainDefinitions.map (·.name)).Nodup := by decide
  obtain ⟨names, hleast, houtcome⟩ := run_outcome plainExtract hnames plainResult
  obtain ⟨-, ⟨events, schedule, hrun, hfollows, hover⟩, -⟩ :=
    houtcome .looking [] _ .begin (fun _ _ hmem => absurd hmem List.not_mem_nil)
  obtain ⟨-, -, hend⟩ := houtcome _ _ _ hrun hfollows
  exact ⟨hnames, names, hleast, _, schedule, hrun, hover, (hend hover).1⟩

end

end Schedule

/-- Compiling the nodes of a repository reports each path of a definition once. The nodes may depend
on what is in the databases, on the catalog and on the clock, but each definition ends in one way,
and the rest of the report follows from that. -/
theorem Repository.compileNodes_entries_perm {σ γ : Type} (drivers : Drivers (Environment σ) γ)
    (extract : String → NameSet) (root : Path) (workspace : Workspace σ)
    (hnames : ((loadNodes workspace.environment.files root).2.map (·.name)).Nodup) :
    ∃ result names,
      IsLeast {names | Schedule.IsClosed extract (loadNodes workspace.environment.files root).2
        result names} names ∧
      (compileNodes drivers extract root workspace).1.entries.Perm
        ((Definition.discover workspace.environment.files root .node).map
          (Schedule.entryAt extract result names workspace.environment.files root)) := by
  obtain ⟨events, schedule, hrun, hover, hreport⟩ :=
    compileNodes_eq drivers extract root workspace hnames
  obtain ⟨result, hfollows⟩ := hrun.exists_follows hnames
  refine ⟨result, _, hrun.finished_isLeast hnames hfollows hover, ?_⟩
  rw [hreport]
  exact ((hrun.settled hnames hfollows hover).entries_perm _).trans (Schedule.perm_entryAt rfl)

end MetricCatalog
