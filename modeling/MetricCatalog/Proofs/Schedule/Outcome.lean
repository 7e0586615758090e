/-
# What comes of a schedule

Every run comes to its end, after no more endings than there are definitions.
When each definition ends in a settled way, the end does not depend on the order
of the endings: what is compiled is the least set of names that holds a
definition as soon as it compiles and all it depends on is in the set. Cycles,
missing names and failed dependencies need no treatment of their own, as none of
them forces a name into the least set.
-/

import Mathlib.Data.List.Perm.Subperm
import Mathlib.Order.Bounds.Basic
import MetricCatalog.Proofs.Schedule.Safety

namespace MetricCatalog

namespace Schedule

open History

/-- The names that have finished, as a set. -/
def finishedSet (schedule : Schedule) : Set String := {name | name ∈ schedule.finishedNames}

/-- All that a definition depends on lies in a set of names. -/
def IsWithin (extract : String → NameSet) (names : Set String) (definition : NodeDefinition) :
    Prop :=
  ∀ dependency ∈ upstream extract definition, dependency ∈ names

/-- A set of names that holds each definition which compiles and depends on the set only. -/
def IsClosed (extract : String → NameSet) (definitions : List NodeDefinition)
    (result : NodeDefinition → Except CompileError Node) (names : Set String) : Prop :=
  ∀ definition ∈ definitions, (∃ node, result definition = .ok node) →
    IsWithin extract names definition → definition.name ∈ names

/-- Each definition ends in the way that is settled for it. -/
def Follows (result : NodeDefinition → Except CompileError Node) (events : List Event) : Prop :=
  ∀ definition outcome, .ended definition outcome ∈ events → outcome = result definition

open Classical in
/-- How a schedule stands in the end, given the names that compile: of the definitions that depend
on these only, each is compiled or has failed, and all the others miss something. -/
structure Settled (extract : String → NameSet) (definitions : List NodeDefinition)
    (result : NodeDefinition → Except CompileError Node) (names : Set String)
    (schedule : Schedule) : Prop where
  finished : ∀ name, name ∈ schedule.finishedNames ↔ name ∈ names
  compiled : schedule.compiled.Perm
    ((definitions.filter (IsWithin extract names ·)).filterMap fun definition =>
      (result definition).toOption.map (definition, ·))
  failures : schedule.failures.Perm
    ((definitions.filter (IsWithin extract names ·)).filterMap fun definition =>
      match result definition with
      | .ok _ => none
      | .error error => some (definition, error))
  unresolved : schedule.unresolved =
    (definitions.filter (¬ IsWithin extract names ·)).map fun definition =>
      (definition, (upstream extract definition).filter (· ∉ names))
  missing_ne_nil : ∀ entry ∈ schedule.unresolved, entry.2 ≠ []

/-! ## A run on its way -/

section

variable {extract : String → NameSet} {definitions : List NodeDefinition} {phase : Phase}
  {events : List Event} {schedule : Schedule}
  {result : NodeDefinition → Except CompileError Node}

theorem Follows.of_append {first second : List Event}
    (hfollows : Follows result (first ++ second)) : Follows result first :=
  fun definition outcome hmem => hfollows definition outcome (List.mem_append_left _ hmem)

/-- What was started depends on finished names only. -/
theorem Run.isWithin_of_started (hnames : (definitions.map (·.name)).Nodup)
    (hrun : Run (ofDefinitions extract definitions) phase events schedule)
    {definition : NodeDefinition} (hstarted : definition ∈ schedule.started) :
    IsWithin extract schedule.finishedSet definition := by
  have hconsistent := hrun.consistent hnames
  rw [hconsistent.started_eq, mem_startedIn] at hstarted
  obtain ⟨before, after, rfl⟩ := List.append_of_mem hstarted
  intro dependency hdependency
  have hbefore : dependency ∈ finishedIn before :=
    hrun.founded hnames before (.started definition) after rfl dependency hdependency
  show dependency ∈ schedule.finishedNames
  rw [hconsistent.finishedNames_eq, finishedIn_append]
  exact List.mem_append_left _ hbefore

/-- A definition ends at most once, so there are no more endings than definitions. -/
theorem Run.length_outcomes_le (hnames : (definitions.map (·.name)).Nodup)
    (hrun : Run (ofDefinitions extract definitions) phase events schedule) :
    schedule.outcomes.length ≤ definitions.length := by
  have hconsistent := hrun.consistent hnames
  have hsubset : schedule.outcomes.map (·.1) ⊆ definitions := by
    intro definition hmem
    obtain ⟨outcome, houtcome, rfl⟩ := List.mem_map.mp hmem
    exact hconsistent.started_mem _ (hconsistent.outcome_started outcome houtcome)
  simpa using (hconsistent.ended_nodup.subperm hsubset).length_le

/-- As long as the loop is not over, there is something in flight to wait for. -/
theorem Run.exists_inFlight (hnames : (definitions.map (·.name)).Nodup)
    (hrun : Run (ofDefinitions extract definitions) phase events schedule)
    (hopen : ¬ schedule.IsOver) : ∃ definition, definition ∈ schedule.start.inFlight := by
  have hconsistent := hrun.consistent hnames
  by_cases hready : schedule.ready = []
  · have hflight : schedule.inFlight ≠ [] := fun hflight => hopen ⟨hready, hflight⟩
    rw [start_eq_self hready]
    exact List.exists_mem_of_ne_nil _ hflight
  · obtain ⟨definition, hmem⟩ := List.exists_mem_of_ne_nil _ hready
    refine ⟨definition, mem_inFlight.mpr ⟨List.mem_append_right _ hmem, fun hended => ?_⟩⟩
    obtain ⟨outcome, houtcome, hname⟩ := List.mem_map.mp hended
    refine (mem_ready.mp hmem).2.1 (List.mem_map.mpr ⟨outcome.1, ?_, hname⟩)
    exact hconsistent.outcome_started outcome houtcome

/-- Names finish only if every closed set holds them: the definition that ends with a node was
started on names that had finished before. -/
theorem Run.finished_subset (hnames : (definitions.map (·.name)).Nodup)
    (hrun : Run (ofDefinitions extract definitions) phase events schedule)
    (hfollows : Follows result events) {names : Set String}
    (hclosed : IsClosed extract definitions result names) :
    ∀ name ∈ schedule.finishedNames, name ∈ names := by
  induction hrun with
  | begin =>
      intro name hname
      cases hname
  | start _ _ ih => exact ih hfollows.of_append
  | @complete _ before definition prior hflight outcome ih =>
      intro name hname
      obtain ⟨other, node, hmem, rfl⟩ := mem_finishedNames.mp hname
      rcases List.mem_append.mp hmem with hold | hnew
      · exact ih hfollows.of_append _ (mem_finishedNames.mpr ⟨other, node, hold, rfl⟩)
      · obtain ⟨rfl, rfl⟩ := Prod.mk.inj (List.mem_singleton.mp hnew)
        have hstarted := (mem_inFlight.mp hflight).1
        have hresult := hfollows other (.ok node)
          (List.mem_append_right _ (List.mem_singleton_self _))
        refine hclosed other ((prior.consistent hnames).started_mem other hstarted)
          ⟨node, hresult.symm⟩ fun dependency hdependency => ?_
        exact ih hfollows.of_append dependency
          (prior.isWithin_of_started hnames hstarted dependency hdependency)

/-! ## The end of a run -/

/-- In the end a definition has been started exactly if all it depends on has finished. -/
theorem Run.mem_started_iff (hnames : (definitions.map (·.name)).Nodup)
    (hrun : Run (ofDefinitions extract definitions) phase events schedule)
    (hover : schedule.IsOver) {definition : NodeDefinition} :
    definition ∈ schedule.started ↔
      definition ∈ definitions ∧
        IsWithin extract schedule.finishedSet definition := by
  have hconsistent := hrun.consistent hnames
  constructor
  · intro hstarted
    exact ⟨hconsistent.started_mem definition hstarted,
      hrun.isWithin_of_started hnames hstarted⟩
  · rintro ⟨hmem, hwithin⟩
    by_cases hname : definition.name ∈ schedule.startedNames
    · obtain ⟨other, hother, heq⟩ := List.mem_map.mp hname
      rwa [← List.inj_on_of_nodup_map hnames (hconsistent.started_mem other hother) hmem heq]
    · have hmissing : schedule.missing definition.name = [] := by
        rw [missing_eq_nil, hconsistent.dependenciesFor_eq hnames hmem]
        exact hwithin
      have hready : definition ∈ schedule.ready :=
        mem_ready.mpr ⟨hconsistent.definitions_eq ▸ hmem, hname, hmissing⟩
      rw [hover.1] at hready
      cases hready

/-- In the end whatever was started has ended. -/
theorem Run.mem_map_outcomes_iff (hnames : (definitions.map (·.name)).Nodup)
    (hrun : Run (ofDefinitions extract definitions) phase events schedule)
    (hover : schedule.IsOver) {definition : NodeDefinition} :
    definition ∈ schedule.outcomes.map (·.1) ↔ definition ∈ schedule.started := by
  have hconsistent := hrun.consistent hnames
  constructor
  · intro hended
    obtain ⟨outcome, houtcome, rfl⟩ := List.mem_map.mp hended
    exact hconsistent.outcome_started outcome houtcome
  · intro hstarted
    by_cases hname : definition.name ∈ schedule.outcomes.map (·.1.name)
    · obtain ⟨outcome, houtcome, heq⟩ := List.mem_map.mp hname
      have hother := hconsistent.started_mem _ (hconsistent.outcome_started outcome houtcome)
      rw [← List.inj_on_of_nodup_map hnames hother (hconsistent.started_mem _ hstarted) heq]
      exact List.mem_map_of_mem houtcome
    · have hflight : definition ∈ schedule.inFlight := mem_inFlight.mpr ⟨hstarted, hname⟩
      rw [hover.2] at hflight
      cases hflight

open Classical in
/-- In the end the definitions that ended are those that depend on finished names only. -/
theorem Run.map_outcomes_perm (hnames : (definitions.map (·.name)).Nodup)
    (hrun : Run (ofDefinitions extract definitions) phase events schedule)
    (hover : schedule.IsOver) :
    (schedule.outcomes.map (·.1)).Perm
      (definitions.filter (IsWithin extract schedule.finishedSet ·)) := by
  have hended := (hrun.consistent hnames).ended_nodup
  refine (List.perm_ext_iff_of_nodup hended (hnames.of_map.filter _)).mpr fun definition => ?_
  rw [hrun.mem_map_outcomes_iff hnames hover, hrun.mem_started_iff hnames hover, List.mem_filter,
    decide_eq_true_iff]

/-- With settled results the outcomes are known from the definitions that ended. -/
theorem Run.outcomes_eq_map (hnames : (definitions.map (·.name)).Nodup)
    (hrun : Run (ofDefinitions extract definitions) phase events schedule)
    (hfollows : Follows result events) :
    schedule.outcomes =
      (schedule.outcomes.map (·.1)).map fun definition => (definition, result definition) := by
  rw [List.map_map]
  refine (List.map_id _).symm.trans (List.map_congr_left fun outcome houtcome => ?_)
  rw [(hrun.consistent hnames).outcomes_eq, mem_outcomesIn] at houtcome
  exact Prod.ext rfl (hfollows outcome.1 outcome.2 houtcome)

/-- What finishes is the least closed set. -/
theorem Run.finished_isLeast (hnames : (definitions.map (·.name)).Nodup)
    (hrun : Run (ofDefinitions extract definitions) phase events schedule)
    (hfollows : Follows result events) (hover : schedule.IsOver) :
    IsLeast {names | IsClosed extract definitions result names}
      schedule.finishedSet := by
  refine ⟨?_, fun names hclosed => hrun.finished_subset hnames hfollows hclosed⟩
  rintro definition hmem ⟨node, hnode⟩ hwithin
  have hended := (hrun.mem_map_outcomes_iff hnames hover).mpr
    ((hrun.mem_started_iff hnames hover).mpr ⟨hmem, hwithin⟩)
  refine mem_finishedNames.mpr ⟨definition, node, ?_, rfl⟩
  rw [hrun.outcomes_eq_map hnames hfollows, ← hnode]
  exact List.mem_map_of_mem hended

theorem Run.mem_startedNames_iff (hnames : (definitions.map (·.name)).Nodup)
    (hrun : Run (ofDefinitions extract definitions) phase events schedule)
    (hover : schedule.IsOver) {definition : NodeDefinition} (hmem : definition ∈ definitions) :
    definition.name ∈ schedule.startedNames ↔
      IsWithin extract schedule.finishedSet definition := by
  constructor
  · intro hname
    obtain ⟨other, hother, heq⟩ := List.mem_map.mp hname
    have hsame := List.inj_on_of_nodup_map hnames
      ((hrun.consistent hnames).started_mem other hother) hmem heq
    exact hrun.isWithin_of_started hnames (hsame ▸ hother)
  · intro hwithin
    exact List.mem_map_of_mem ((hrun.mem_started_iff hnames hover).mpr ⟨hmem, hwithin⟩)

open Classical in
/-- The definitions left over are reported with those of their dependencies that did not finish. -/
theorem Run.unresolved_eq (hnames : (definitions.map (·.name)).Nodup)
    (hrun : Run (ofDefinitions extract definitions) phase events schedule)
    (hover : schedule.IsOver) :
    schedule.unresolved =
      (definitions.filter (¬ IsWithin extract schedule.finishedSet ·)).map
        fun definition => (definition, (upstream extract definition).filter
          (· ∉ schedule.finishedSet)) := by
  have hconsistent := hrun.consistent hnames
  rw [← List.filterMap_eq_map, List.filterMap_filter, unresolved, hconsistent.definitions_eq]
  refine List.filterMap_congr fun definition hmem => ?_
  have hmissing : schedule.missing definition.name = (upstream extract definition).filter
      (· ∉ schedule.finishedSet) := by
    rw [missing, hconsistent.dependenciesFor_eq hnames hmem]
    refine List.filter_congr fun dependency _ => ?_
    rw [Bool.eq_iff_iff, decide_eq_true_iff]
    simp [finishedSet]
  have hstarted := hrun.mem_startedNames_iff hnames hover hmem
  by_cases hwithin : IsWithin extract schedule.finishedSet definition
  · simp [hwithin, hstarted.mpr hwithin]
  · have hname : definition.name ∉ schedule.startedNames := fun hname =>
      hwithin (hstarted.mp hname)
    simp [hwithin, hname, hmissing]

/-- A definition that misses nothing would have been ready. -/
theorem missing_ne_nil_of_mem_unresolved (hover : schedule.IsOver)
    {entry : NodeDefinition × List String} (hentry : entry ∈ schedule.unresolved) :
    entry.2 ≠ [] := by
  obtain ⟨definition, hmem, hleft⟩ := List.mem_filterMap.mp hentry
  split at hleft
  · cases hleft
  · rename_i hstarted
    cases hleft
    intro hmissing
    have hready : definition ∈ schedule.ready := by
      refine mem_ready.mpr ⟨hmem, fun hname => hstarted ?_, hmissing⟩
      exact List.contains_iff_mem.mpr hname
    rw [hover.1] at hready
    cases hready

theorem Run.settled (hnames : (definitions.map (·.name)).Nodup)
    (hrun : Run (ofDefinitions extract definitions) phase events schedule)
    (hfollows : Follows result events) (hover : schedule.IsOver) :
    Settled extract definitions result schedule.finishedSet schedule where
  finished := fun name => Iff.rfl
  compiled := by
    classical
    rw [compiled, hrun.outcomes_eq_map hnames hfollows, compiledOf, List.filterMap_map]
    refine ((hrun.map_outcomes_perm hnames hover).filterMap _).trans (.of_eq ?_)
    refine List.filterMap_congr fun definition _ => ?_
    cases hresult : result definition <;> simp [hresult, Except.toOption]
  failures := by
    classical
    rw [failures, hrun.outcomes_eq_map hnames hfollows, List.filterMap_map]
    refine ((hrun.map_outcomes_perm hnames hover).filterMap _).trans (.of_eq ?_)
    refine List.filterMap_congr fun definition _ => ?_
    cases hresult : result definition <;> simp [hresult]
  unresolved := hrun.unresolved_eq hnames hover
  missing_ne_nil := fun _ hentry => missing_ne_nil_of_mem_unresolved hover hentry

end

end Schedule

end MetricCatalog
