/-
# Runs of a schedule

The loop that compiles nodes starts all that is ready, waits until one of those
in flight ends, and looks again. Which of them ends next, and how, is left open
here, so what holds of every run holds in whatever order and with whatever
results the nodes are compiled. A run is kept along with the list of what
happened in it.
-/

import Mathlib.Data.List.Nodup
import MetricCatalog.Compile.Schedule
import MetricCatalog.Proofs.History
import MetricCatalog.Proofs.KeyMap

namespace MetricCatalog

namespace Schedule

/-- The names that a definition depends on. -/
def upstream (extract : String → NameSet) (definition : NodeDefinition) : List String :=
  ((definition.config.expression.map extract).getD .empty).toNames

/-- The definitions that were started and have not ended. -/
def inFlight (schedule : Schedule) : List NodeDefinition :=
  schedule.started.filter fun definition =>
    !(schedule.outcomes.map (·.1.name)).contains definition.name

/-- The loop comes to its end when nothing is ready and nothing in flight. -/
def IsOver (schedule : Schedule) : Prop := schedule.ready = [] ∧ schedule.inFlight = []

/-- The definitions among outcomes that were compiled, with their nodes. -/
def compiledOf (outcomes : List (NodeDefinition × Except CompileError Node)) :
    List (NodeDefinition × Node) :=
  outcomes.filterMap fun
    | (definition, .ok node) => some (definition, node)
    | (_, .error _) => none

/-- The definitions that were compiled, with their nodes, in order. -/
def compiled (schedule : Schedule) : List (NodeDefinition × Node) := compiledOf schedule.outcomes

/-- Something that happens in a run. -/
inductive Event
  | started (definition : NodeDefinition)
  | ended (definition : NodeDefinition) (result : Except CompileError Node)

/-- The definition that an event starts. -/
def Event.start? : Event → Option NodeDefinition
  | started definition => some definition
  | ended .. => none

/-- The definition that an event ends, and how. -/
def Event.end? : Event → Option (NodeDefinition × Except CompileError Node)
  | started _ => none
  | ended definition result => some (definition, result)

/-- The definitions that were started, in order. -/
def startedIn (events : List Event) : List NodeDefinition := events.filterMap Event.start?

/-- The definitions that ended, and how, in order. -/
def outcomesIn (events : List Event) : List (NodeDefinition × Except CompileError Node) :=
  events.filterMap Event.end?

/-- The names of the definitions that ended with a node. -/
def finishedIn (events : List Event) : List String :=
  (compiledOf (outcomesIn events)).map (·.1.name)

/-- Where the loop stands. -/
inductive Phase
  /-- It looks for what is ready. -/
  | looking
  /-- It waits for one of those in flight. -/
  | waiting

/-- The runs from a first schedule: what happened, and the schedule it led to. -/
inductive Run (first : Schedule) : Phase → List Event → Schedule → Prop
  /-- Nothing has happened. -/
  | begin : Run first .looking [] first
  /-- All that is ready is started, unless the loop is over. -/
  | start {events : List Event} {schedule : Schedule} (prior : Run first .looking events schedule)
      (hopen : ¬ schedule.IsOver) :
      Run first .waiting (events ++ schedule.ready.map .started) schedule.start
  /-- One of those in flight ends in some way. -/
  | complete {events : List Event} {schedule : Schedule} {definition : NodeDefinition}
      (prior : Run first .waiting events schedule) (hflight : definition ∈ schedule.inFlight)
      (result : Except CompileError Node) :
      Run first .looking (events ++ [.ended definition result])
        (schedule.complete definition result)

/-! ## Reading a list of events -/

@[simp] theorem startedIn_append (first second : List Event) :
    startedIn (first ++ second) = startedIn first ++ startedIn second :=
  List.filterMap_append

@[simp] theorem outcomesIn_append (first second : List Event) :
    outcomesIn (first ++ second) = outcomesIn first ++ outcomesIn second :=
  List.filterMap_append

@[simp] theorem startedIn_map_started (batch : List NodeDefinition) :
    startedIn (batch.map .started) = batch := by
  simp [startedIn, List.filterMap_map, Function.comp_def, Event.start?]

@[simp] theorem outcomesIn_map_started (batch : List NodeDefinition) :
    outcomesIn (batch.map .started) = [] := by
  simp [outcomesIn, List.filterMap_map, Function.comp_def, Event.end?]

@[simp] theorem startedIn_ended (definition : NodeDefinition)
    (result : Except CompileError Node) : startedIn [.ended definition result] = [] := rfl

@[simp] theorem outcomesIn_ended (definition : NodeDefinition)
    (result : Except CompileError Node) :
    outcomesIn [.ended definition result] = [(definition, result)] := rfl

theorem mem_startedIn {events : List Event} {definition : NodeDefinition} :
    definition ∈ startedIn events ↔ .started definition ∈ events := by
  simp only [startedIn, List.mem_filterMap]
  constructor
  · rintro ⟨event, hmem, hevent⟩
    cases event with
    | started other =>
        cases hevent
        exact hmem
    | ended other result => cases hevent
  · intro hmem
    exact ⟨.started definition, hmem, rfl⟩

theorem mem_outcomesIn {events : List Event}
    {outcome : NodeDefinition × Except CompileError Node} :
    outcome ∈ outcomesIn events ↔ .ended outcome.1 outcome.2 ∈ events := by
  simp only [outcomesIn, List.mem_filterMap]
  constructor
  · rintro ⟨event, hmem, hevent⟩
    cases event with
    | started other => cases hevent
    | ended other result =>
        cases hevent
        exact hmem
  · intro hmem
    exact ⟨.ended outcome.1 outcome.2, hmem, rfl⟩

/-! ## Reading a schedule -/

theorem map_snd_compiled (schedule : Schedule) : schedule.compiled.map (·.2) = schedule.nodes := by
  unfold compiled compiledOf nodes
  rw [List.map_filterMap]
  congr
  funext outcome
  obtain ⟨definition, _ | _⟩ := outcome <;> rfl

theorem map_name_compiled (schedule : Schedule) :
    schedule.compiled.map (·.1.name) = schedule.finishedNames := by
  unfold compiled compiledOf finishedNames
  rw [List.map_filterMap]
  congr
  funext outcome
  obtain ⟨definition, _ | _⟩ := outcome <;> rfl

theorem mem_compiledOf {outcomes : List (NodeDefinition × Except CompileError Node)}
    {definition : NodeDefinition} {node : Node} :
    (definition, node) ∈ compiledOf outcomes ↔ (definition, .ok node) ∈ outcomes := by
  simp only [compiledOf, List.mem_filterMap]
  constructor
  · rintro ⟨⟨other, result⟩, hmem, hresult⟩
    cases result with
    | error error => cases hresult
    | ok found =>
        cases hresult
        exact hmem
  · intro hmem
    exact ⟨(definition, .ok node), hmem, rfl⟩

theorem mem_finishedNames {schedule : Schedule} {name : String} :
    name ∈ schedule.finishedNames ↔
      ∃ definition node, (definition, .ok node) ∈ schedule.outcomes ∧ definition.name = name := by
  rw [← map_name_compiled, List.mem_map]
  constructor
  · rintro ⟨⟨definition, node⟩, hmem, hname⟩
    exact ⟨definition, node, mem_compiledOf.mp hmem, hname⟩
  · rintro ⟨definition, node, hmem, hname⟩
    exact ⟨(definition, node), mem_compiledOf.mpr hmem, hname⟩

theorem missing_eq_nil {schedule : Schedule} {name : String} :
    schedule.missing name = [] ↔
      ∀ dependency ∈ schedule.dependenciesFor name, dependency ∈ schedule.finishedNames := by
  simp [missing, List.filter_eq_nil_iff]

theorem mem_ready {schedule : Schedule} {definition : NodeDefinition} :
    definition ∈ schedule.ready ↔
      definition ∈ schedule.definitions ∧ definition.name ∉ schedule.startedNames ∧
        schedule.missing definition.name = [] := by
  simp [ready]

theorem mem_inFlight {schedule : Schedule} {definition : NodeDefinition} :
    definition ∈ schedule.inFlight ↔
      definition ∈ schedule.started ∧
        definition.name ∉ schedule.outcomes.map (·.1.name) := by
  simp [inFlight]

theorem startedNames_start (schedule : Schedule) :
    schedule.start.startedNames = schedule.startedNames ++ schedule.ready.map (·.name) :=
  List.map_append

theorem start_eq_self {schedule : Schedule} (hready : schedule.ready = []) :
    schedule.start = schedule := by
  simp [start, hready]

theorem not_isOver_of_ready {schedule : Schedule} {definition : NodeDefinition}
    (hready : definition ∈ schedule.ready) : ¬ schedule.IsOver := by
  intro hover
  rw [hover.1] at hready
  cases hready

/-- With different names, a definition's own expression says what it depends on. -/
theorem dependenciesFor_ofDefinitions (extract : String → NameSet)
    {definitions : List NodeDefinition} (hnames : (definitions.map (·.name)).Nodup)
    {definition : NodeDefinition} (hmem : definition ∈ definitions) :
    (ofDefinitions extract definitions).dependenciesFor definition.name =
      upstream extract definition := by
  have hkeys : (List.map (·.1) (definitions.map fun definition =>
      (definition.name, (definition.config.expression.map extract).getD .empty))).Nodup := by
    simpa [List.map_map, Function.comp_def] using hnames
  have hfound := KeyMap.find?_ofList hkeys (List.mem_map_of_mem hmem)
  simp only [dependenciesFor, ofDefinitions, dependenciesOf, upstream]
  rw [hfound]
  rfl

/-! ## What a run keeps -/

/-- What holds of the schedule at every moment of a run. -/
structure Consistent (extract : String → NameSet) (definitions : List NodeDefinition)
    (events : List Event) (schedule : Schedule) : Prop where
  definitions_eq : schedule.definitions = definitions
  dependencies_eq : schedule.dependencies = dependenciesOf extract definitions
  started_eq : schedule.started = startedIn events
  outcomes_eq : schedule.outcomes = outcomesIn events
  started_mem : ∀ definition ∈ schedule.started, definition ∈ definitions
  started_nodup : schedule.startedNames.Nodup
  outcome_started : ∀ outcome ∈ schedule.outcomes, outcome.1 ∈ schedule.started
  outcomes_nodup : (schedule.outcomes.map (·.1.name)).Nodup

namespace Consistent

variable {extract : String → NameSet} {definitions : List NodeDefinition} {events : List Event}
  {schedule : Schedule}

theorem initial (extract : String → NameSet) (definitions : List NodeDefinition) :
    Consistent extract definitions [] (ofDefinitions extract definitions) where
  definitions_eq := rfl
  dependencies_eq := rfl
  started_eq := rfl
  outcomes_eq := rfl
  started_mem := by simp [ofDefinitions]
  started_nodup := List.nodup_nil
  outcome_started := by simp [ofDefinitions]
  outcomes_nodup := List.nodup_nil

theorem dependenciesFor_eq (hnames : (definitions.map (·.name)).Nodup)
    (hconsistent : Consistent extract definitions events schedule) {definition : NodeDefinition}
    (hmem : definition ∈ definitions) :
    schedule.dependenciesFor definition.name = upstream extract definition := by
  rw [← dependenciesFor_ofDefinitions extract hnames hmem]
  simp only [dependenciesFor, hconsistent.dependencies_eq, ofDefinitions]

theorem finishedNames_eq (hconsistent : Consistent extract definitions events schedule) :
    schedule.finishedNames = finishedIn events := by
  rw [← map_name_compiled, compiled, hconsistent.outcomes_eq, finishedIn]

theorem ended_nodup (hconsistent : Consistent extract definitions events schedule) :
    (schedule.outcomes.map (·.1)).Nodup := by
  refine List.Nodup.of_map (·.name) ?_
  simpa only [List.map_map, Function.comp_def] using hconsistent.outcomes_nodup

theorem start (hnames : (definitions.map (·.name)).Nodup)
    (hconsistent : Consistent extract definitions events schedule) :
    Consistent extract definitions (events ++ schedule.ready.map .started) schedule.start where
  definitions_eq := hconsistent.definitions_eq
  dependencies_eq := hconsistent.dependencies_eq
  started_eq := by
    simp only [Schedule.start, startedIn_append, startedIn_map_started, hconsistent.started_eq]
  outcomes_eq := by
    rw [outcomesIn_append, outcomesIn_map_started, List.append_nil]
    exact hconsistent.outcomes_eq
  started_mem := by
    intro definition hmem
    rcases List.mem_append.mp hmem with hold | hnew
    · exact hconsistent.started_mem definition hold
    · exact hconsistent.definitions_eq ▸ (mem_ready.mp hnew).1
  started_nodup := by
    have hready : (schedule.ready.map (·.name)).Nodup := by
      refine hnames.sublist (List.Sublist.map _ ?_)
      exact hconsistent.definitions_eq ▸ List.filter_sublist
    rw [startedNames_start]
    refine List.Nodup.append hconsistent.started_nodup hready ?_
    intro name hold hnew
    obtain ⟨definition, hmem, rfl⟩ := List.mem_map.mp hnew
    exact (mem_ready.mp hmem).2.1 hold
  outcome_started := fun outcome hmem =>
    List.mem_append_left _ (hconsistent.outcome_started outcome hmem)
  outcomes_nodup := hconsistent.outcomes_nodup

theorem complete (hconsistent : Consistent extract definitions events schedule)
    {definition : NodeDefinition} (hflight : definition ∈ schedule.inFlight)
    (result : Except CompileError Node) :
    Consistent extract definitions (events ++ [.ended definition result])
      (schedule.complete definition result) where
  definitions_eq := hconsistent.definitions_eq
  dependencies_eq := hconsistent.dependencies_eq
  started_eq := by
    rw [startedIn_append, startedIn_ended, List.append_nil]
    exact hconsistent.started_eq
  outcomes_eq := by
    simp only [Schedule.complete, outcomesIn_append, outcomesIn_ended, hconsistent.outcomes_eq]
  started_mem := hconsistent.started_mem
  started_nodup := hconsistent.started_nodup
  outcome_started := by
    intro outcome hmem
    rcases List.mem_append.mp hmem with hold | hnew
    · exact hconsistent.outcome_started outcome hold
    · rw [List.mem_singleton.mp hnew]
      exact (mem_inFlight.mp hflight).1
  outcomes_nodup := by
    simp only [Schedule.complete, List.map_append, List.map_cons, List.map_nil]
    refine List.Nodup.append hconsistent.outcomes_nodup (List.nodup_singleton _) ?_
    rw [List.disjoint_singleton]
    exact (mem_inFlight.mp hflight).2

end Consistent

theorem Run.consistent {extract : String → NameSet} {definitions : List NodeDefinition}
    (hnames : (definitions.map (·.name)).Nodup) {phase : Phase} {events : List Event}
    {schedule : Schedule} (hrun : Run (ofDefinitions extract definitions) phase events schedule) :
    Consistent extract definitions events schedule := by
  induction hrun with
  | begin => exact .initial extract definitions
  | start _ _ ih => exact ih.start hnames
  | complete _ hflight result ih => exact ih.complete hflight result

end Schedule

end MetricCatalog
