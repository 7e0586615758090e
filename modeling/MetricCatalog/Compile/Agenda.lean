/-
# Compiling side by side

Jobs take their turns in the order in which they became runnable. A job that
waits for an answer lets the next one go on; when all jobs wait, time goes on to
the next answer. A job that ends makes room for the nodes that depended on it.
-/

import MetricCatalog.Compile.Schedule

namespace MetricCatalog

/-- A definition that is being compiled. -/
structure Job (σ : Type) where
  /-- The number of definitions that were started before. -/
  number : Nat
  definition : NodeDefinition
  /-- How far it has come. -/
  task : NodeTask σ

/-- All jobs of a run. -/
structure Agenda (σ : Type) where
  /-- The order of compiling. -/
  schedule : Schedule
  /-- The jobs that can go on, first come first served. -/
  runnable : List (Job σ)
  /-- The jobs that wait, in the order in which they were started. -/
  waiting : List (Job σ)
  clock : Nat
  /-- What the jobs work with. -/
  workspace : Workspace σ

namespace Agenda

variable {σ γ : Type}

/-- Puts a job among others, in the order in which they were started. -/
def shelve (job : Job σ) : List (Job σ) → List (Job σ)
  | [] => [job]
  | first :: rest =>
      if job.number < first.number then job :: first :: rest else first :: shelve job rest

/-- The agenda after all ready definitions have been started. -/
def start (agenda : Agenda σ) : Agenda σ :=
  let first := agenda.schedule.started.length
  let jobs : List (Job σ) := agenda.schedule.ready.mapIdx fun index definition =>
    ⟨first + index, definition, .ready⟩
  { agenda with schedule := agenda.schedule.start, runnable := agenda.runnable ++ jobs }

/-- The agenda at the beginning of a run. -/
def ofSchedule (schedule : Schedule) (workspace : Workspace σ) : Agenda σ :=
  start ⟨schedule, [], [], 0, workspace⟩

/-- Whether the job waits for an answer that is there by some millisecond. -/
def isDue (clock : Nat) (job : Job σ) : Bool := job.task.dueTimes.any (· ≤ clock)

/-- The agenda after the next turn of a job, or after some time when all jobs wait. It is none
when no job is left. -/
def next? (drivers : Drivers (Environment σ) γ) (databases : KeyMap String Database)
    (agenda : Agenda σ) : Option (Agenda σ) :=
  match agenda.runnable with
  | job :: rest =>
      let (task, workspace) :=
        job.task.step drivers databases agenda.clock job.definition agenda.workspace
      let agenda := { agenda with runnable := rest, workspace := workspace }
      match task.result? with
      | some result =>
          let schedule := agenda.schedule.complete job.definition result
          some { agenda with schedule := schedule }.start
      | none => some { agenda with waiting := shelve { job with task := task } agenda.waiting }
  | [] =>
      match (agenda.waiting.flatMap fun job => job.task.dueTimes).min? with
      | none => none
      | some clock =>
          let (due, waiting) := agenda.waiting.partition (isDue clock)
          some { agenda with runnable := due, waiting := waiting, clock := clock }

/-- The agenda after a number of turns, or when no job is left. -/
def run (drivers : Drivers (Environment σ) γ) (databases : KeyMap String Database) :
    Nat → Agenda σ → Agenda σ
  | 0, agenda => agenda
  | turns + 1, agenda =>
      match agenda.next? drivers databases with
      | none => agenda
      | some agenda => run drivers databases turns agenda

/-- A number of turns after which no job is left. A job has its first turn and one more, after
time has gone on, for each of its representations at most. -/
def turns (definitions : List NodeDefinition) : Nat :=
  definitions.foldr (fun definition n => 1 + 2 * definition.config.representations.length + n) 0

end Agenda

end MetricCatalog
