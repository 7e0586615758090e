/-
# Dependencies come first

No node is started before all it depends on has been compiled, none is started
twice, and in the report each node stands behind its dependencies. This holds
at every moment of every run, whatever becomes of the nodes.
-/

import MetricCatalog.Proofs.Schedule.Loop

namespace MetricCatalog

namespace Schedule

open History

/-- What an event may build on: a start on the nodes compiled before it, an end on the start. -/
def Founded (extract : String → NameSet) (before : List Event) : Event → Prop
  | .started definition =>
      ∀ dependency ∈ upstream extract definition, dependency ∈ finishedIn before
  | .ended definition _ => definition ∈ startedIn before

theorem finishedIn_append (first second : List Event) :
    finishedIn (first ++ second) = finishedIn first ++ finishedIn second := by
  simp only [finishedIn, compiledOf, outcomesIn_append, List.filterMap_append, List.map_append]

/-- A batch is founded on what was finished when the loop looked for what is ready. -/
theorem Consistent.along_batch {extract : String → NameSet} {definitions : List NodeDefinition}
    (hnames : (definitions.map (·.name)).Nodup) {events : List Event} {schedule : Schedule}
    (hconsistent : Consistent extract definitions events schedule) :
    Along (fun before event => Founded extract (events ++ before) event)
      (schedule.ready.map .started) := by
  intro before event after hsplit
  have hevent : event ∈ schedule.ready.map Event.started := by
    rw [hsplit]
    simp
  obtain ⟨definition, hready, rfl⟩ := List.mem_map.mp hevent
  obtain ⟨hmem, -, hmissing⟩ := mem_ready.mp hready
  rw [hconsistent.definitions_eq] at hmem
  intro dependency hdependency
  rw [← hconsistent.dependenciesFor_eq hnames hmem] at hdependency
  rw [finishedIn_append, ← hconsistent.finishedNames_eq]
  exact List.mem_append_left _ (missing_eq_nil.mp hmissing dependency hdependency)

theorem Run.founded {extract : String → NameSet} {definitions : List NodeDefinition}
    (hnames : (definitions.map (·.name)).Nodup) {phase : Phase} {events : List Event}
    {schedule : Schedule} (hrun : Run (ofDefinitions extract definitions) phase events schedule) :
    Along (Founded extract) events := by
  induction hrun with
  | begin => exact along_nil _
  | start prior _ ih => exact ih.append ((prior.consistent hnames).along_batch hnames)
  | complete prior hflight _ ih =>
      refine ih.concat ?_
      show _ ∈ startedIn _
      rw [← (prior.consistent hnames).started_eq]
      exact (mem_inFlight.mp hflight).1

/-- What a definition depends on was compiled before it was. -/
theorem upstream_before_compiled {extract : String → NameSet} {events : List Event}
    (hfounded : Along (Founded extract) events) {before after : List (NodeDefinition × Node)}
    {definition : NodeDefinition} {node : Node}
    (hsplit : compiledOf (outcomesIn events) = before ++ (definition, node) :: after) :
    ∀ dependency ∈ upstream extract definition, dependency ∈ before.map (·.1.name) := by
  obtain ⟨earlier, ⟨ended, result⟩, later, houtcomes, hresult, rfl⟩ := split_of_filterMap hsplit
  cases result with
  | error error => cases hresult
  | ok found =>
      cases hresult
      obtain ⟨first, event, second, rfl, hevent, rfl⟩ := split_of_filterMap houtcomes
      cases event with
      | started other => cases hevent
      | ended other result =>
          cases hevent
          have hstarted : .started definition ∈ first :=
            mem_startedIn.mp (hfounded first _ second rfl)
          obtain ⟨start, middle, rfl⟩ := List.append_of_mem hstarted
          intro dependency hdependency
          have hfinished : dependency ∈ finishedIn start :=
            hfounded start (.started definition) (middle ++ _) (List.append_assoc _ _ _) dependency
              hdependency
          have hlater : dependency ∈ finishedIn (start ++ .started definition :: middle) := by
            rw [finishedIn_append]
            exact List.mem_append_left _ hfinished
          exact hlater

/-- In every state of every run: the nodes started and the nodes finished are those that the
events so far name, each node was started when all it depends on was among the finished ones, no
node was started twice, and each node of the report stands behind all it depends on. -/
theorem run_safe (extract : String → NameSet) {definitions : List NodeDefinition}
    (hnames : (definitions.map (·.name)).Nodup) {phase : Phase} {events : List Event}
    {schedule : Schedule} (hrun : Run (ofDefinitions extract definitions) phase events schedule) :
    (schedule.started = startedIn events ∧ schedule.finishedNames = finishedIn events) ∧
    (∀ before definition after, events = before ++ .started definition :: after →
      ∀ dependency ∈ upstream extract definition, dependency ∈ finishedIn before) ∧
    (schedule.started.map (·.name)).Nodup ∧
    schedule.nodes = schedule.compiled.map (·.2) ∧
    (∀ before definition node after, schedule.compiled = before ++ (definition, node) :: after →
      ∀ dependency ∈ upstream extract definition, dependency ∈ before.map (·.1.name)) := by
  have hconsistent := hrun.consistent hnames
  have hfounded := hrun.founded hnames
  refine ⟨⟨hconsistent.started_eq, hconsistent.finishedNames_eq⟩, ?_, hconsistent.started_nodup,
    (map_snd_compiled schedule).symm, ?_⟩
  · intro before definition after hsplit
    exact hfounded before (.started definition) after hsplit
  · intro before definition node after hsplit
    rw [compiled, hconsistent.outcomes_eq] at hsplit
    exact upstream_before_compiled hfounded hsplit

/-- A definition without representations, whose expression is the name it depends on. -/
def plainDefinition (name : String) (upstream : Option String) : NodeDefinition :=
  ⟨name, ⟨name⟩, ⟨0, 0⟩, ⟨none, upstream, []⟩⟩

/-- The node of such a definition. -/
def plainNode (name : String) (upstream : Option String) : Node :=
  ⟨.ofNat 1, name, none, upstream, [], [], ⟨0, 0⟩, ⟨0, 0⟩⟩

/-- Totals that depend on users, found before the users, and a node that depends on itself. -/
def plainDefinitions : List NodeDefinition :=
  [plainDefinition "totals" (some "users"), plainDefinition "users" none,
    plainDefinition "loop" (some "loop")]

/-- The expression is the one name it depends on. -/
def plainExtract (expression : String) : NameSet := NameSet.ofNames [expression]

/-- The users are compiled, and then the totals are. -/
def plainEvents : List Event :=
  [.started (plainDefinition "users" none),
    .ended (plainDefinition "users" none) (.ok (plainNode "users" none)),
    .started (plainDefinition "totals" (some "users")),
    .ended (plainDefinition "totals" (some "users")) (.ok (plainNode "totals" (some "users")))]

theorem run_plainEvents : ∃ schedule,
    Run (ofDefinitions plainExtract plainDefinitions) .looking plainEvents schedule := by
  have husers : plainDefinition "users" none ∈
      (ofDefinitions plainExtract plainDefinitions).ready := List.mem_cons_self ..
  have hfirst := Run.begin.start (not_isOver_of_ready husers)
  have hended := hfirst.complete (mem_inFlight.mpr ⟨husers, List.not_mem_nil⟩)
    (.ok (plainNode "users" none))
  have htotals : plainDefinition "totals" (some "users") ∈
      ((ofDefinitions plainExtract plainDefinitions).start.complete (plainDefinition "users" none)
        (.ok (plainNode "users" none))).ready := List.mem_cons_self ..
  have hsecond := hended.start (not_isOver_of_ready htotals)
  exact ⟨_, hsecond.complete (mem_inFlight.mpr ⟨List.mem_append_right _ htotals, by decide⟩)
    (.ok (plainNode "totals" (some "users")))⟩

theorem run_safe_plainEvents :
    (plainDefinitions.map (·.name)).Nodup ∧
    (∃ schedule, Run (ofDefinitions plainExtract plainDefinitions) .looking plainEvents schedule) ∧
    upstream plainExtract (plainDefinition "totals" (some "users")) = ["users"] ∧
    "users" ∈ finishedIn (plainEvents.take 2) := by
  have hnames : (plainDefinitions.map (·.name)).Nodup := by decide
  obtain ⟨schedule, hrun⟩ := run_plainEvents
  have hfounded := (run_safe plainExtract hnames hrun).2.1
  exact ⟨hnames, ⟨schedule, hrun⟩, rfl,
    hfounded (plainEvents.take 2) (plainDefinition "totals" (some "users")) (plainEvents.drop 3) rfl
      "users" (List.mem_singleton_self _)⟩

end Schedule

end MetricCatalog
