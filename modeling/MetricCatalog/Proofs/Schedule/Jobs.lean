/-
# The agenda runs the loop

The agenda takes the turns of the jobs in one particular order. Whatever it does
is a run of the loop, with the jobs as the definitions in flight, and the number
of turns it is given is enough to bring the loop to its end: each turn, and each
time the clock goes on, takes something away from a potential.
-/

import Mathlib.Algebra.BigOperators.Group.List.Basic
import Mathlib.Algebra.GroupWithZero.Nat
import Mathlib.Algebra.Order.BigOperators.Group.List
import Mathlib.Algebra.Order.Group.Nat
import MetricCatalog.Compile.Repository
import MetricCatalog.Proofs.Schedule.Outcome
import MetricCatalog.Proofs.Schedule.Task

namespace MetricCatalog

namespace Agenda

open Reading Schedule

variable {σ γ : Type}

/-! ## The potential -/

/-- The turns a definition can take: one at first, and for each representation one that
settles an answer, after the clock has gone on to it. -/
def weight (definition : NodeDefinition) : Nat := 1 + 2 * definition.config.representations.length

/-- The turns a job can still take while it waits. -/
def waitingTurns (job : Job σ) : Nat :=
  match job.task with
  | .ready => weight job.definition
  | .reading _ _ readings => 2 * (awaited readings).length
  | .done _ => 0

/-- The turns a job can still take when it can go on: an answer is there, so the clock need not go
on for it. -/
def runnableTurns (job : Job σ) : Nat :=
  match job.task with
  | .ready => weight job.definition
  | .reading _ _ readings => 2 * (awaited readings).length - 1
  | .done _ => 0

/-- A bound on the turns that are left. -/
def potential (definitions : List NodeDefinition) (agenda : Agenda σ) : Nat :=
  (turns definitions - turns agenda.schedule.started) +
    ((agenda.runnable.map runnableTurns).sum + (agenda.waiting.map waitingTurns).sum)

theorem turns_eq_sum (definitions : List NodeDefinition) :
    turns definitions = (definitions.map weight).sum := by
  induction definitions with
  | nil => rfl
  | cons definition rest ih =>
      simp only [turns, List.foldr_cons, List.map_cons, List.sum_cons, weight] at ih ⊢
      rw [ih]

theorem turns_append (first second : List NodeDefinition) :
    turns (first ++ second) = turns first + turns second := by
  simp only [turns_eq_sum, List.map_append, List.sum_append]

theorem turns_le_of_subperm {first second : List NodeDefinition}
    (hsub : first.Subperm second) : turns first ≤ turns second := by
  obtain ⟨middle, hperm, hsublist⟩ := hsub
  have hfirst : turns first = turns middle := by
    rw [turns_eq_sum, turns_eq_sum]
    exact (hperm.map weight).sum_eq.symm
  rw [hfirst, turns_eq_sum, turns_eq_sum]
  exact (hsublist.map weight).sum_le_sum fun _ _ => Nat.zero_le _

/-! ## What the jobs are -/

/-- A job that can go on has just been started, or an answer it awaits is there. -/
def CanGoOn (clock : Nat) (job : Job σ) : Prop :=
  job.task = .ready ∨
    ∃ existing representations readings, job.task = .reading existing representations readings ∧
      ∃ due ∈ awaited readings, due ≤ clock

/-- The jobs are the definitions in flight of a run of the loop in which all that is ready has
been started. -/
structure Sound (first : Schedule) (agenda : Agenda σ) : Prop where
  run : ∃ events schedule, Run first .looking events schedule ∧ agenda.schedule = schedule.start
  flight : ((agenda.runnable ++ agenda.waiting).map (·.definition)).Perm
    agenda.schedule.inFlight
  runnable : ∀ job ∈ agenda.runnable, CanGoOn agenda.clock job
  waiting : ∀ job ∈ agenda.waiting, ∃ bound, job.task.Awaits bound

theorem shelve_perm (job : Job σ) (jobs : List (Job σ)) : (shelve job jobs).Perm (job :: jobs) := by
  induction jobs with
  | nil => exact List.Perm.refl _
  | cons first rest ih =>
      simp only [shelve]
      split
      · exact List.Perm.refl _
      · exact (ih.cons first).trans (List.Perm.swap job first rest)

/-- The jobs that are added when all ready definitions are started. -/
def startedJobs (schedule : Schedule) : List (Job σ) :=
  schedule.ready.mapIdx fun index definition =>
    ⟨schedule.started.length + index, definition, .ready⟩

theorem map_definition_startedJobs (schedule : Schedule) :
    ((startedJobs schedule : List (Job σ)).map (·.definition)) = schedule.ready := by
  rw [startedJobs, List.mapIdx_eq_zipIdx_map, List.map_map]
  exact List.zipIdx_map_fst 0 schedule.ready

theorem task_of_mem_startedJobs {schedule : Schedule} {job : Job σ}
    (hjob : job ∈ startedJobs schedule) : job.task = .ready := by
  obtain ⟨index, hindex, rfl⟩ := List.mem_mapIdx.mp hjob
  rfl

theorem sum_runnableTurns_startedJobs (schedule : Schedule) :
    ((startedJobs schedule : List (Job σ)).map runnableTurns).sum = turns schedule.ready := by
  have hjobs : (startedJobs schedule : List (Job σ)).map runnableTurns =
      ((startedJobs schedule : List (Job σ)).map (·.definition)).map weight := by
    rw [List.map_map]
    refine List.map_congr_left fun job hjob => ?_
    simp [runnableTurns, task_of_mem_startedJobs hjob]
  rw [hjobs, map_definition_startedJobs, turns_eq_sum]

theorem ofSchedule_schedule (schedule : Schedule) (workspace : Workspace σ) :
    (Agenda.ofSchedule schedule workspace).schedule = schedule.start := rfl

theorem ofSchedule_runnable (schedule : Schedule) (workspace : Workspace σ) :
    (Agenda.ofSchedule schedule workspace).runnable = startedJobs schedule := rfl

theorem ofSchedule_waiting (schedule : Schedule) (workspace : Workspace σ) :
    (Agenda.ofSchedule schedule workspace).waiting = [] := rfl

/-- The agenda after a job has ended and all that is ready then has been started. -/
def afterEnd (agenda : Agenda σ) (job : Job σ) (rest : List (Job σ)) (workspace : Workspace σ)
    (result : Except CompileError Node) : Agenda σ :=
  let schedule := agenda.schedule.complete job.definition result
  start { agenda with schedule := schedule, runnable := rest, workspace := workspace }

theorem afterEnd_schedule (agenda : Agenda σ) (job : Job σ) (rest : List (Job σ))
    (workspace : Workspace σ) (result : Except CompileError Node) :
    (agenda.afterEnd job rest workspace result).schedule =
      (agenda.schedule.complete job.definition result).start := rfl

theorem afterEnd_runnable (agenda : Agenda σ) (job : Job σ) (rest : List (Job σ))
    (workspace : Workspace σ) (result : Except CompileError Node) :
    (agenda.afterEnd job rest workspace result).runnable =
      rest ++ startedJobs (agenda.schedule.complete job.definition result) := rfl

theorem afterEnd_waiting (agenda : Agenda σ) (job : Job σ) (rest : List (Job σ))
    (workspace : Workspace σ) (result : Except CompileError Node) :
    (agenda.afterEnd job rest workspace result).waiting = agenda.waiting := rfl

/-- The agenda after a job has been put aside to wait. -/
def putAside (agenda : Agenda σ) (job : Job σ) (rest : List (Job σ)) (workspace : Workspace σ)
    (task : NodeTask σ) : Agenda σ :=
  { agenda with
    runnable := rest
    waiting := shelve { job with task := task } agenda.waiting
    workspace := workspace }

/-- The agenda after all jobs that are due at some millisecond have been taken up. -/
def atClock (agenda : Agenda σ) (clock : Nat) : Agenda σ :=
  { agenda with
    runnable := agenda.waiting.filter (isDue clock)
    waiting := agenda.waiting.filter (fun job => !isDue clock job)
    clock := clock }

/-- What the next turn can be: a job ends or is put aside, or, as none can go on, the clock does. -/
inductive Next (drivers : Drivers (Environment σ) γ) (databases : KeyMap String Database)
    (agenda : Agenda σ) : Agenda σ → Prop
  | ended {job : Job σ} {rest : List (Job σ)} {task : NodeTask σ} {workspace : Workspace σ}
      {result : Except CompileError Node} (hrunnable : agenda.runnable = job :: rest)
      (hstep : job.task.step drivers databases agenda.clock job.definition agenda.workspace =
        (task, workspace))
      (hresult : task.result? = some result) :
      Next drivers databases agenda (agenda.afterEnd job rest workspace result)
  | aside {job : Job σ} {rest : List (Job σ)} {task : NodeTask σ} {workspace : Workspace σ}
      (hrunnable : agenda.runnable = job :: rest)
      (hstep : job.task.step drivers databases agenda.clock job.definition agenda.workspace =
        (task, workspace))
      (hresult : task.result? = none) :
      Next drivers databases agenda (agenda.putAside job rest workspace task)
  | clock {clock : Nat} (hrunnable : agenda.runnable = [])
      (hclock : clock ∈ agenda.waiting.flatMap fun job => job.task.dueTimes) :
      Next drivers databases agenda (agenda.atClock clock)

theorem next_of_next? {drivers : Drivers (Environment σ) γ} {databases : KeyMap String Database}
    {agenda after : Agenda σ} (hnext : agenda.next? drivers databases = some after) :
    Next drivers databases agenda after := by
  unfold next? at hnext
  split at hnext
  · rename_i job rest hrunnable
    rcases hstep : job.task.step drivers databases agenda.clock job.definition agenda.workspace
      with ⟨task, workspace⟩
    rw [hstep] at hnext
    cases hresult : task.result? with
    | some result =>
        simp only [hresult, Option.some.injEq] at hnext
        subst hnext
        exact .ended hrunnable hstep hresult
    | none =>
        simp only [hresult, Option.some.injEq] at hnext
        subst hnext
        exact .aside hrunnable hstep hresult
  · rename_i hrunnable
    split at hnext
    · cases hnext
    · rename_i clock hclock
      simp only [List.partition_eq_filter_filter, Option.some.injEq] at hnext
      subst hnext
      exact .clock hrunnable (List.min?_mem hclock)

/-! ## The definitions in flight -/

section

variable {extract : String → NameSet} {definitions : List NodeDefinition} {phase : Phase}
  {events : List Event} {schedule : Schedule}

theorem inFlight_start (hnames : (definitions.map (·.name)).Nodup)
    (hrun : Run (ofDefinitions extract definitions) phase events schedule) :
    schedule.start.inFlight = schedule.inFlight ++ schedule.ready := by
  have hconsistent := hrun.consistent hnames
  simp only [inFlight, Schedule.start, List.filter_append]
  congr 1
  rw [List.filter_eq_self]
  intro definition hready
  have hended : definition.name ∉ schedule.outcomes.map (·.1.name) := by
    intro hname
    obtain ⟨outcome, houtcome, heq⟩ := List.mem_map.mp hname
    refine (mem_ready.mp hready).2.1 (List.mem_map.mpr ⟨outcome.1, ?_, heq⟩)
    exact hconsistent.outcome_started outcome houtcome
  simpa using hended

/-- An ending takes its definition, and no other one, out of those in flight. -/
theorem inFlight_complete_perm (hnames : (definitions.map (·.name)).Nodup)
    (hrun : Run (ofDefinitions extract definitions) phase events schedule)
    {definition : NodeDefinition} {others : List NodeDefinition}
    (hperm : (definition :: others).Perm schedule.inFlight)
    (result : Except CompileError Node) :
    others.Perm (schedule.complete definition result).inFlight := by
  have hflight : (schedule.inFlight.map (·.name)).Nodup :=
    (hrun.consistent hnames).started_nodup.sublist (List.filter_sublist.map _)
  have hnodup : ((definition :: others).map (·.name)).Nodup :=
    (hperm.map (·.name)).nodup_iff.mpr hflight
  have hothers : others.filter (fun other => decide (other.name ≠ definition.name)) = others := by
    rw [List.filter_eq_self]
    intro other hmem
    have hne : other.name ≠ definition.name := fun heq =>
      (List.nodup_cons.mp hnodup).1 (List.mem_map.mpr ⟨other, hmem, heq⟩)
    simpa using hne
  have hcomplete : (schedule.complete definition result).inFlight =
      schedule.inFlight.filter (fun other => decide (other.name ≠ definition.name)) := by
    simp only [inFlight, Schedule.complete, List.filter_filter]
    refine List.filter_congr fun other _ => ?_
    rw [Bool.eq_iff_iff]
    simp [not_or, and_comm]
  have hfiltered := hperm.filter (fun other => decide (other.name ≠ definition.name))
  rw [List.filter_cons_of_neg (by simp), hothers] at hfiltered
  rw [hcomplete]
  exact hfiltered

end

/-! ## A turn of a job -/

theorem waitingTurns_of_awaits (job : Job σ) {bound : Nat} (hawaits : job.task.Awaits bound) :
    waitingTurns job ≤ 2 * bound := by
  obtain ⟨existing, representations, readings, htask, -, hbound⟩ := hawaits
  simp only [waitingTurns, htask]
  omega

/-- A job that can go on ends with its turn, or it has fewer turns left than before. -/
theorem step_of_canGoOn (drivers : Drivers (Environment σ) γ)
    (databases : KeyMap String Database) {clock : Nat} {job : Job σ} (hjob : CanGoOn clock job)
    (workspace : Workspace σ) :
    0 < runnableTurns job ∧
    ((∃ result, (job.task.step drivers databases clock job.definition workspace).1.result? =
        some result) ∨
      ∃ bound, (job.task.step drivers databases clock job.definition workspace).1.Awaits bound ∧
        2 * bound < runnableTurns job) := by
  rcases hjob with htask | ⟨existing, representations, readings, htask, due, hdue, hnow⟩
  · have hturns : runnableTurns job = 1 + 2 * job.definition.config.representations.length := by
      simp [runnableTurns, htask, weight]
    rw [htask, hturns]
    refine ⟨by omega, ?_⟩
    refine (NodeTask.step_ready drivers databases clock job.definition workspace).imp_right ?_
    exact fun hawaits => ⟨_, hawaits, by omega⟩
  · have hturns : runnableTurns job = 2 * (awaited readings).length - 1 := by
      simp [runnableTurns, htask]
    have hfewer : ((awaited readings).filter (clock < ·)).length < (awaited readings).length := by
      refine List.length_filter_lt_length_iff_exists.mpr ⟨due, hdue, ?_⟩
      simpa using hnow
    rw [htask, hturns]
    refine ⟨by omega, ?_⟩
    refine (NodeTask.step_reading drivers databases clock job.definition existing representations
      readings workspace).imp_right ?_
    exact fun hawaits => ⟨_, hawaits, by omega⟩

section

variable {extract : String → NameSet} {definitions : List NodeDefinition} {agenda : Agenda σ}

theorem Sound.turns_started_le (hnames : (definitions.map (·.name)).Nodup)
    (hsound : Sound (ofDefinitions extract definitions) agenda) :
    turns agenda.schedule.started ≤ turns definitions := by
  obtain ⟨events, schedule, hrun, hschedule⟩ := hsound.run
  have hconsistent := (hrun.consistent hnames).start hnames
  rw [hschedule]
  refine turns_le_of_subperm (List.Nodup.subperm ?_ hconsistent.started_mem)
  exact hconsistent.started_nodup.of_map

/-- A job whose turn is its last one leaves room for the definitions that waited for it. -/
theorem Sound.afterEnd (hnames : (definitions.map (·.name)).Nodup)
    (hsound : Sound (ofDefinitions extract definitions) agenda) {job : Job σ}
    {rest : List (Job σ)} (hrunnable : agenda.runnable = job :: rest) (workspace : Workspace σ)
    (result : Except CompileError Node) :
    Sound (ofDefinitions extract definitions) (agenda.afterEnd job rest workspace result) := by
  obtain ⟨events, schedule, hrun, hschedule⟩ := hsound.run
  have hperm : (job.definition :: (rest ++ agenda.waiting).map (·.definition)).Perm
      schedule.start.inFlight := by
    have hflight := hsound.flight
    rwa [hrunnable, hschedule] at hflight
  have hmem : job.definition ∈ schedule.start.inFlight :=
    hperm.mem_iff.mp (List.mem_cons_self ..)
  have hopen : ¬ schedule.IsOver := by
    intro hover
    rw [start_eq_self hover.1, hover.2] at hmem
    cases hmem
  have hcomplete := (hrun.start hopen).complete hmem result
  have hothers := inFlight_complete_perm hnames (hrun.start hopen) hperm result
  rw [← hschedule] at hcomplete hothers
  refine ⟨⟨_, _, hcomplete, rfl⟩, ?_, ?_, hsound.waiting⟩
  · rw [afterEnd_schedule, inFlight_start hnames hcomplete, afterEnd_runnable, afterEnd_waiting]
    simp only [List.map_append, map_definition_startedJobs] at hothers ⊢
    refine List.Perm.trans ?_ (hothers.append_right _)
    simp only [List.append_assoc]
    exact List.perm_append_comm.append_left _
  · intro other hother
    rcases List.mem_append.mp hother with hold | hnew
    · exact hsound.runnable other (hrunnable ▸ List.mem_cons_of_mem _ hold)
    · exact Or.inl (task_of_mem_startedJobs hnew)

/-- What a start adds to the jobs it takes from the definitions that were not started. -/
theorem Sound.potential_afterEnd_lt (hnames : (definitions.map (·.name)).Nodup)
    (hsound : Sound (ofDefinitions extract definitions) agenda) {job : Job σ}
    {rest : List (Job σ)} (hrunnable : agenda.runnable = job :: rest)
    (hturns : 0 < runnableTurns job) (workspace : Workspace σ)
    (result : Except CompileError Node) :
    potential definitions (agenda.afterEnd job rest workspace result) <
      potential definitions agenda := by
  have hbound := (hsound.afterEnd hnames hrunnable workspace result).turns_started_le hnames
  have hstarted : turns (agenda.afterEnd job rest workspace result).schedule.started =
      turns agenda.schedule.started +
        turns (agenda.schedule.complete job.definition result).ready := turns_append _ _
  rw [hstarted] at hbound
  simp only [potential, hstarted, afterEnd_runnable, afterEnd_waiting, hrunnable, List.map_append,
    List.sum_append, sum_runnableTurns_startedJobs, List.map_cons, List.sum_cons]
  omega

/-- A job that has to wait is put aside. -/
theorem Sound.putAside (hsound : Sound (ofDefinitions extract definitions) agenda) {job : Job σ}
    {rest : List (Job σ)} (hrunnable : agenda.runnable = job :: rest) (workspace : Workspace σ)
    {task : NodeTask σ} {bound : Nat} (hawaits : task.Awaits bound) :
    Sound (ofDefinitions extract definitions) (agenda.putAside job rest workspace task) := by
  refine ⟨hsound.run, ?_, ?_, ?_⟩
  · have hflight := hsound.flight
    rw [hrunnable] at hflight
    refine List.Perm.trans ?_ hflight
    have hshelved := (shelve_perm { job with task := task } agenda.waiting).map (·.definition)
    simp only [List.map_append, List.map_cons, List.cons_append] at hshelved ⊢
    exact (hshelved.append_left _).trans List.perm_middle
  · intro other hother
    exact hsound.runnable other (hrunnable ▸ List.mem_cons_of_mem _ hother)
  · intro other hother
    rcases List.mem_cons.mp ((shelve_perm _ _).mem_iff.mp hother) with rfl | hold
    · exact ⟨bound, hawaits⟩
    · exact hsound.waiting other hold

theorem potential_putAside_lt {job : Job σ} {rest : List (Job σ)}
    (hrunnable : agenda.runnable = job :: rest) (workspace : Workspace σ) {task : NodeTask σ}
    {bound : Nat} (hawaits : task.Awaits bound) (hturns : 2 * bound < runnableTurns job) :
    potential definitions (agenda.putAside job rest workspace task) <
      potential definitions agenda := by
  have hshelved := ((shelve_perm { job with task := task } agenda.waiting).map waitingTurns).sum_eq
  have hjob := waitingTurns_of_awaits { job with task := task } hawaits
  rw [List.map_cons, List.sum_cons] at hshelved
  simp only [potential, Agenda.putAside, hrunnable, hshelved, List.map_cons, List.sum_cons]
  omega

/-! ## The clock goes on -/

theorem mem_dueTimes_of_awaits {bound : Nat} {task : NodeTask σ} (hawaits : task.Awaits bound) :
    ∃ existing representations readings, task = .reading existing representations readings ∧
      awaited readings ≠ [] ∧ ∀ due, due ∈ task.dueTimes ↔ due ∈ awaited readings := by
  obtain ⟨existing, representations, readings, rfl, hawaited, -⟩ := hawaits
  exact ⟨existing, representations, readings, rfl, hawaited, fun _ => mem_dueTimes⟩

theorem canGoOn_of_isDue {clock bound : Nat} {job : Job σ} (hawaits : job.task.Awaits bound)
    (hdue : isDue clock job = true) :
    CanGoOn clock job ∧ runnableTurns job < waitingTurns job := by
  obtain ⟨existing, representations, readings, htask, hawaited, hdueTimes⟩ :=
    mem_dueTimes_of_awaits hawaits
  simp only [isDue, List.any_eq_true, decide_eq_true_iff] at hdue
  obtain ⟨due, hmem, hnow⟩ := hdue
  refine ⟨Or.inr ⟨existing, representations, readings, htask, due, (hdueTimes due).mp hmem, hnow⟩,
    ?_⟩
  have hlength := List.length_pos_iff.mpr hawaited
  simp only [runnableTurns, waitingTurns, htask]
  omega

theorem Sound.atClock (hsound : Sound (ofDefinitions extract definitions) agenda)
    (hrunnable : agenda.runnable = []) (clock : Nat) :
    Sound (ofDefinitions extract definitions) (agenda.atClock clock) := by
  refine ⟨hsound.run, ?_, ?_, ?_⟩
  · have hflight := hsound.flight
    rw [hrunnable, List.nil_append] at hflight
    exact ((List.filter_append_perm _ agenda.waiting).map _).trans hflight
  · intro job hjob
    obtain ⟨hwaiting, hdue⟩ := List.mem_filter.mp hjob
    obtain ⟨bound, hawaits⟩ := hsound.waiting job hwaiting
    exact (canGoOn_of_isDue hawaits hdue).1
  · intro job hjob
    exact hsound.waiting job (List.mem_filter.mp hjob).1

/-- The clock goes on only to a millisecond at which some job is due. -/
theorem Sound.potential_atClock_lt (hsound : Sound (ofDefinitions extract definitions) agenda)
    (hrunnable : agenda.runnable = []) {clock : Nat}
    (hclock : clock ∈ agenda.waiting.flatMap fun job => job.task.dueTimes) :
    potential definitions (agenda.atClock clock) < potential definitions agenda := by
  obtain ⟨job, hjob, hdue⟩ := List.mem_flatMap.mp hclock
  have hnonempty : agenda.waiting.filter (isDue clock) ≠ [] := by
    refine List.ne_nil_of_mem (List.mem_filter.mpr ⟨hjob, ?_⟩)
    exact List.any_eq_true.mpr ⟨clock, hdue, by simp⟩
  have hfewer := List.sum_lt_sum_of_ne_nil hnonempty runnableTurns waitingTurns (by
    intro other hother
    obtain ⟨hwaiting, hisDue⟩ := List.mem_filter.mp hother
    obtain ⟨bound, hawaits⟩ := hsound.waiting other hwaiting
    exact (canGoOn_of_isDue hawaits hisDue).2)
  have hsplit := ((List.filter_append_perm (isDue clock) agenda.waiting).map waitingTurns).sum_eq
  rw [List.map_append, List.sum_append] at hsplit
  simp only [potential, Agenda.atClock, hrunnable, List.map_nil, List.sum_nil]
  omega

/-! ## A run of the agenda -/

variable {drivers : Drivers (Environment σ) γ} {databases : KeyMap String Database}

theorem Sound.next (hnames : (definitions.map (·.name)).Nodup)
    (hsound : Sound (ofDefinitions extract definitions) agenda) {after : Agenda σ}
    (hnext : agenda.next? drivers databases = some after) :
    Sound (ofDefinitions extract definitions) after ∧
      potential definitions after < potential definitions agenda := by
  cases next_of_next? hnext with
  | @ended job rest task workspace result hrunnable hstep hresult =>
      obtain ⟨hturns, -⟩ := step_of_canGoOn drivers databases
        (hsound.runnable job (hrunnable ▸ List.mem_cons_self ..)) agenda.workspace
      exact ⟨hsound.afterEnd hnames hrunnable workspace result,
        hsound.potential_afterEnd_lt hnames hrunnable hturns workspace result⟩
  | @aside job rest task workspace hrunnable hstep hresult =>
      obtain ⟨-, hmoves⟩ := step_of_canGoOn drivers databases
        (hsound.runnable job (hrunnable ▸ List.mem_cons_self ..)) agenda.workspace
      rw [hstep] at hmoves
      obtain ⟨result, hended⟩ | ⟨bound, hawaits, hbound⟩ := hmoves
      · cases hresult.symm.trans hended
      · exact ⟨hsound.putAside hrunnable workspace hawaits,
          potential_putAside_lt hrunnable workspace hawaits hbound⟩
  | clock hrunnable hclock =>
      exact ⟨hsound.atClock hrunnable _, hsound.potential_atClock_lt hrunnable hclock⟩

theorem Sound.eq_nil_of_next?_eq_none
    (hsound : Sound (ofDefinitions extract definitions) agenda)
    (hnext : agenda.next? drivers databases = none) :
    agenda.runnable = [] ∧ agenda.waiting = [] := by
  unfold next? at hnext
  split at hnext
  · generalize NodeTask.step _ _ _ _ _ _ = stepped at hnext
    obtain ⟨task, workspace⟩ := stepped
    cases hresult : task.result? <;> simp [hresult] at hnext
  · rename_i hrunnable
    refine ⟨hrunnable, List.eq_nil_iff_forall_not_mem.mpr fun job hjob => ?_⟩
    split at hnext
    · rename_i hdue
      obtain ⟨bound, hawaits⟩ := hsound.waiting job hjob
      obtain ⟨existing, representations, readings, -, hawaited, hdueTimes⟩ :=
        mem_dueTimes_of_awaits hawaits
      obtain ⟨due, hmem⟩ := List.exists_mem_of_ne_nil _ hawaited
      rw [List.min?_eq_none_iff, List.flatMap_eq_nil_iff] at hdue
      have hnone := hdue job hjob
      rw [← hdueTimes due, hnone] at hmem
      cases hmem
    · cases hnext

/-- When no job is left, the loop is over. -/
theorem Sound.isOver (hnames : (definitions.map (·.name)).Nodup)
    (hsound : Sound (ofDefinitions extract definitions) agenda)
    (hnext : agenda.next? drivers databases = none) :
    ∃ events, Run (ofDefinitions extract definitions) .looking events agenda.schedule ∧
      agenda.schedule.IsOver := by
  obtain ⟨hrunnable, hwaiting⟩ := hsound.eq_nil_of_next?_eq_none hnext
  obtain ⟨events, schedule, hrun, hschedule⟩ := hsound.run
  have hflight := hsound.flight
  rw [hrunnable, hwaiting, hschedule] at hflight
  have hnone : schedule.start.inFlight = [] := hflight.symm.eq_nil
  have hover : schedule.IsOver := by
    by_contra hopen
    obtain ⟨definition, hmem⟩ := hrun.exists_inFlight hnames hopen
    rw [hnone] at hmem
    cases hmem
  rw [hschedule, start_eq_self hover.1]
  exact ⟨events, hrun, hover⟩

variable (drivers databases) in
/-- Enough turns bring the agenda to the point where no job is left. -/
theorem Sound.run_next?_eq_none (hnames : (definitions.map (·.name)).Nodup) {turns : Nat}
    (hsound : Sound (ofDefinitions extract definitions) agenda)
    (hturns : potential definitions agenda ≤ turns) :
    Sound (ofDefinitions extract definitions) (agenda.run drivers databases turns) ∧
      (agenda.run drivers databases turns).next? drivers databases = none := by
  induction turns generalizing agenda with
  | zero =>
      refine ⟨hsound, ?_⟩
      cases hnext : agenda.next? drivers databases with
      | none => exact hnext
      | some after =>
          have hless := (hsound.next hnames hnext).2
          omega
  | succ turns ih =>
      cases hnext : agenda.next? drivers databases with
      | none =>
          simp only [Agenda.run, hnext]
          exact ⟨hsound, trivial⟩
      | some after =>
          obtain ⟨hafter, hless⟩ := hsound.next hnames hnext
          simp only [Agenda.run, hnext]
          exact ih hafter (by omega)

variable (extract) in
theorem sound_ofSchedule (hnames : (definitions.map (·.name)).Nodup)
    (workspace : Workspace σ) :
    Sound (ofDefinitions extract definitions)
      (Agenda.ofSchedule (ofDefinitions extract definitions) workspace) := by
  refine ⟨⟨[], _, .begin, rfl⟩, ?_, ?_, ?_⟩
  · rw [ofSchedule_runnable, ofSchedule_waiting, ofSchedule_schedule, inFlight_start hnames .begin,
      List.append_nil, map_definition_startedJobs]
    exact List.Perm.refl _
  · intro job hjob
    exact Or.inl (task_of_mem_startedJobs hjob)
  · intro job hjob
    cases hjob

theorem potential_ofSchedule_le (hnames : (definitions.map (·.name)).Nodup)
    (workspace : Workspace σ) :
    potential definitions (Agenda.ofSchedule (ofDefinitions extract definitions) workspace) ≤
      turns definitions := by
  have hbound := (sound_ofSchedule extract hnames workspace).turns_started_le hnames
  have hstarted : (ofDefinitions extract definitions).start.started =
      (ofDefinitions extract definitions).ready := List.nil_append _
  rw [ofSchedule_schedule, hstarted] at hbound
  simp only [potential, ofSchedule_runnable, ofSchedule_waiting, ofSchedule_schedule, hstarted,
    sum_runnableTurns_startedJobs, List.map_nil, List.sum_nil]
  omega

end

end Agenda

/-- Compiling the nodes of a repository is a run of the loop to its end. -/
theorem Repository.compileNodes_eq {σ γ : Type} (drivers : Drivers (Environment σ) γ)
    (extract : String → NameSet) (root : Path) (workspace : Workspace σ)
    (hnames : ((loadNodes workspace.environment.files root).2.map (·.name)).Nodup) :
    ∃ events schedule,
      Schedule.Run (.ofDefinitions extract (loadNodes workspace.environment.files root).2) .looking
        events schedule ∧
      schedule.IsOver ∧
      (compileNodes drivers extract root workspace).1 =
        .ofSchedule (loadNodes workspace.environment.files root).1 schedule := by
  have hsound := Agenda.sound_ofSchedule extract hnames workspace
  obtain ⟨hended, hnext⟩ := hsound.run_next?_eq_none drivers workspace.session.databasesByName
    hnames (Agenda.potential_ofSchedule_le hnames workspace)
  obtain ⟨events, hrun, hover⟩ := hended.isOver hnames hnext
  exact ⟨events, _, hrun, hover, rfl⟩

end MetricCatalog
