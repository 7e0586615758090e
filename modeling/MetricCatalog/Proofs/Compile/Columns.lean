/-
# The columns of a compiled node

The columns of a node come from probes of its representations. A probe may be
refused, or take its time, and in between anything can happen to the workspace.
Once the node is made each of its representations has been probed, and what the
probes came to is all that its columns depend on. A probe that has failed is no
obstacle: it has no say.
-/

import MetricCatalog.Proofs.Compile.Agreement
import MetricCatalog.Proofs.Compile.OneByOne
import MetricCatalog.Proofs.Compile.Outcomes
import MetricCatalog.Proofs.Compile.Rounds

namespace MetricCatalog

variable {σ γ : Type}

/-- The session shows a node that it has made. -/
theorem Workspace.node?_of_change {workspace last : Workspace σ} {node : Node}
    (hchange : workspace.change (.createNode node) = (.ok (), last)) :
    last.session.node? node.name = some node := by
  rcases (workspace.session.push (.createNode node)).flush_cases with
    ⟨view, happly, hflush⟩ | ⟨error, -, hflush⟩
  · rw [change, hflush] at hchange
    cases hchange
    rw [Session.push, Catalog.applyAll_append] at happly
    cases hmiddle : workspace.session.view.applyAll workspace.session.pending with
    | error error =>
        rw [hmiddle] at happly
        cases happly
    | ok middle =>
        rw [hmiddle] at happly
        have hlast : (Mutation.createNode node).apply middle = .ok view := by
          rw [← happly]
          exact (bind_pure ((Mutation.createNode node).apply middle)).symm
        have hentry : view.entryOf? .node node.name = (some node).map .node := by
          rw [Mutation.entryOf?_apply hlast, Mutation.effectOn, if_pos ⟨rfl, rfl⟩]
          rfl
        exact Catalog.entryOf?_node.mp hentry
  · rw [change, hflush] at hchange
    cases hchange

namespace NodeTask

open Reading

variable {drivers : Drivers (Environment σ) γ} {databases : KeyMap String Database}
  {definition : NodeDefinition} {clock : Nat} {task : NodeTask σ} {workspace last : Workspace σ}
  {node : Node} {readings : List (Reading (Environment σ))}

/-! ## Steps that make a node -/

theorem forall_contains_of_representations {found : List Representation}
    (hfound : representations databases definition = .ok found) :
    ∀ representation ∈ found, databases.contains representation.database = true := by
  have hall := forall₂_of_mapM_ok hfound
  generalize definition.config.representations = items at hall
  clear hfound
  induction hall with
  | nil => exact List.forall_mem_nil _
  | @cons item _ _ _ hitem _ ih =>
      refine List.forall_mem_cons.mpr ⟨?_, ih⟩
      obtain ⟨database, representation⟩ := item
      simp only at hitem
      split at hitem
      · rename_i hcontains
        cases hitem
        exact hcontains
      · cases hitem

theorem representations_of_known
    (hknown : ∀ representation ∈ definition.config.representationsOf,
      databases.contains representation.database = true) :
    representations databases definition = .ok definition.config.representationsOf := by
  cases hfound : representations databases definition with
  | ok found => rw [representations_eq hfound]
  | error error =>
      obtain ⟨item, hitem, herror⟩ := exists_of_mapM_error hfound
      have hcontains : databases.contains item.1 = true :=
        hknown _ (List.mem_map_of_mem hitem)
      simp only [hcontains, if_true] at herror
      cases herror

/-- The tasks a definition can come to, whatever happens to the workspace between its steps. -/
inductive Underway (drivers : Drivers (Environment σ) γ) (databases : KeyMap String Database)
    (definition : NodeDefinition) : NodeTask σ → Prop
  | ready : Underway drivers databases definition .ready
  | step {task : NodeTask σ} (hunderway : Underway drivers databases definition task)
      (clock : Nat) (workspace : Workspace σ) :
      Underway drivers databases definition
        (task.step drivers databases clock definition workspace).1

/-- The readings that a step goes by. It goes by none if the node is up to date. -/
inductive Hears (drivers : Drivers (Environment σ) γ) (databases : KeyMap String Database)
    (clock : Nat) (definition : NodeDefinition) (workspace : Workspace σ) :
    NodeTask σ → List (Reading (Environment σ)) → Prop
  | starts {found : List Representation}
      (hold : definition.IsOutdated
        ((workspace.session.node? definition.name).map (·.updatedAt)))
      (hfound : representations databases definition = .ok found) :
      Hears drivers databases clock definition workspace .ready
        (startAll drivers clock databases found workspace.environment).1
  | wakes (existing : Option Node) (found : List Representation)
      (readings : List (Reading (Environment σ))) :
      Hears drivers databases clock definition workspace (.reading existing found readings)
        (wakeAll clock readings workspace.environment).1

/-- A step keeps a node that is as new as its definition. -/
def Keeps (definition : NodeDefinition) (workspace : Workspace σ) (node : Node) : Prop :=
  workspace.session.node? definition.name = some node ∧ definition.modified ≤ node.updatedAt

/-- The first step keeps the node that is there, or fails, or goes by the readings that it has
started. -/
theorem step_ready_cases (drivers : Drivers (Environment σ) γ)
    (databases : KeyMap String Database) (clock : Nat) (definition : NodeDefinition)
    (workspace : Workspace σ) :
    (∃ node, Keeps definition workspace node ∧
      NodeTask.ready.step drivers databases clock definition workspace =
        (.done (.ok node), workspace)) ∨
    (∃ error, (NodeTask.ready.step drivers databases clock definition workspace).1 =
      .done (.error error)) ∨
    ∃ found middle,
      definition.IsOutdated ((workspace.session.node? definition.name).map (·.updatedAt)) ∧
      representations databases definition = .ok found ∧
      NodeTask.ready.step drivers databases clock definition workspace =
        settle definition (workspace.session.node? definition.name) found
          (startAll drivers clock databases found workspace.environment).1 middle := by
  simp only [step]
  cases hfilter : (workspace.session.node? definition.name).filter
      fun node => definition.modified ≤ node.updatedAt with
  | some node =>
      obtain ⟨hnode, hcurrent⟩ := Option.filter_eq_some_iff.mp hfilter
      exact Or.inl ⟨node, ⟨hnode, of_decide_eq_true hcurrent⟩, rfl⟩
  | none =>
      refine Or.inr ?_
      simp only
      cases hfound : representations databases definition with
      | error error => exact Or.inl ⟨error, rfl⟩
      | ok found =>
          simp only [startReading_eq]
          have hmiddle := environment_drop workspace (workspace.session.node? definition.name)
            (.dropNode definition.name)
          split
          · exact Or.inl ⟨_, rfl⟩
          · rename_i middle hdrop
            rw [hdrop] at hmiddle
            simp only at hmiddle
            rw [hmiddle]
            exact Or.inr ⟨found, _, Definition.isOutdated_iff.mpr hfilter, rfl, rfl⟩

/-- A task that goes on to make its node makes it of the answers. -/
theorem settle_eq_done {existing : Option Node} {found : List Representation}
    {middle : Workspace σ}
    (hsettle : settle definition existing found readings middle = (.done (.ok node), last)) :
    ∃ answers, readings.mapM answer? = some answers ∧ node.columns = Column.mergeAll answers ∧
      last.session.node? definition.name = some node := by
  unfold settle at hsettle
  split at hsettle
  · cases hsettle
  · rename_i answers hanswers
    let made := record definition existing found (Column.mergeAll answers) middle.stamp.1
      middle.stamp.2.1
    cases hchange : middle.stamped.change (.createNode made) with
    | mk result after =>
        change (done (((middle.stamped.change (.createNode made)).1).map fun _ => made),
          (middle.stamped.change (.createNode made)).2) = _ at hsettle
        rw [hchange] at hsettle
        cases result with
        | error error => cases hsettle
        | ok _ =>
            cases hsettle
            exact ⟨answers, hanswers, rfl, Workspace.node?_of_change hchange⟩

/-- A node that a task comes to was kept or is made of the answers that the last step goes by. -/
theorem step_eq_done
    (hstep : task.step drivers databases clock definition workspace = (.done (.ok node), last)) :
    task = .done (.ok node) ∨
      (task = .ready ∧ Keeps definition workspace node ∧ last = workspace) ∨
      ∃ readings answers, Hears drivers databases clock definition workspace task readings ∧
        readings.mapM answer? = some answers ∧ node.columns = Column.mergeAll answers ∧
        last.session.node? definition.name = some node := by
  cases task with
  | done result =>
      cases hstep
      exact Or.inl rfl
  | ready =>
      refine Or.inr ?_
      rcases step_ready_cases drivers databases clock definition workspace with
        ⟨kept, hkeeps, hkept⟩ | ⟨error, herror⟩ | ⟨found, middle, hold, hfound, hsettle⟩
      · rw [hkept] at hstep
        cases hstep
        exact Or.inl ⟨rfl, hkeeps, rfl⟩
      · rw [hstep] at herror
        cases herror
      · rw [hsettle] at hstep
        obtain ⟨answers, hmade⟩ := settle_eq_done hstep
        exact Or.inr ⟨_, answers, .starts hold hfound, hmade⟩
  | reading existing found readings =>
      obtain ⟨answers, hmade⟩ := settle_eq_done hstep
      exact Or.inr (Or.inr ⟨_, answers, .wakes existing found readings, hmade⟩)

theorem Hears.unique {first second : List (Reading (Environment σ))}
    (hfirst : Hears drivers databases clock definition workspace task first)
    (hsecond : Hears drivers databases clock definition workspace task second) :
    first = second := by
  cases hfirst with
  | starts hold hfound =>
      cases hsecond with
      | starts hold' hfound' =>
          rw [hfound] at hfound'
          cases hfound'
          rfl
  | wakes =>
      cases hsecond with
      | wakes => rfl

theorem Hears.not_keeps
    (hhears : Hears drivers databases clock definition workspace .ready readings) :
    ¬ Keeps definition workspace node := by
  rintro ⟨hnode, hcurrent⟩
  cases hhears with
  | starts hold =>
      rw [hnode] at hold
      exact hold node.updatedAt rfl hcurrent

/-- By induction on the steps: while a task waits, its probes are under way or have ended. -/
theorem Underway.reading (hunderway : Underway drivers databases definition task)
    {existing : Option Node} {found : List Representation}
    (htask : task = .reading existing found readings) :
    found = definition.config.representationsOf ∧
      ComeAll drivers databases found readings := by
  induction hunderway generalizing existing found readings with
  | ready => cases htask
  | @step task _ clock workspace ih =>
      cases task with
      | done result => cases htask
      | ready =>
          rcases step_ready_cases drivers databases clock definition workspace with
            ⟨kept, hkeeps, hkept⟩ | ⟨error, herror⟩ | ⟨found', middle, hold, hfound, hsettle⟩
          · rw [hkept] at htask
            cases htask
          · rw [herror] at htask
            cases htask
          · rw [hsettle] at htask
            rcases settle_done_or_reading definition _ found'
              (startAll drivers clock databases found' workspace.environment).1 middle with
              ⟨result, hdone⟩ | ⟨hreading, -⟩
            · rw [hdone] at htask
              cases htask
            · rw [hreading] at htask
              cases htask
              exact ⟨representations_eq hfound, startAll_comeAll drivers clock
                (forall_contains_of_representations hfound) workspace.environment⟩
      | reading existing' found' readings' =>
          obtain ⟨hfound, hcome⟩ := ih rfl
          simp only [NodeTask.step] at htask
          rcases settle_done_or_reading definition existing' found'
            (Reading.wakeAll clock readings' workspace.environment).1 _ with
            ⟨result, hdone⟩ | ⟨hreading, -⟩
          · rw [hdone] at htask
            cases htask
          · rw [hreading] at htask
            cases htask
            exact ⟨hfound, hcome.wakeAll clock workspace.environment⟩

/-- The readings that a step goes by are the probes of all representations. -/
theorem Hears.comeAll (hunderway : Underway drivers databases definition task)
    (hhears : Hears drivers databases clock definition workspace task readings) :
    ComeAll drivers databases definition.config.representationsOf readings := by
  cases hhears with
  | starts _ hfound =>
      rw [← representations_eq hfound]
      exact startAll_comeAll drivers clock (forall_contains_of_representations hfound)
        workspace.environment
  | wakes existing found readings =>
      obtain ⟨hfound, hcome⟩ := hunderway.reading rfl
      rw [← hfound]
      exact hcome.wakeAll clock workspace.environment

/-! ## The node that is stored -/

/-- The last step of a task stores a node, made of the answers to probes of all representations. -/
inductive Stores (drivers : Drivers (Environment σ) γ) (databases : KeyMap String Database)
    (definition : NodeDefinition) (probes : List (Representation × Outcome)) (node : Node) :
    Session → Prop
  | made {task : NodeTask σ} {clock : Nat} {workspace last : Workspace σ}
      {readings : List (Reading (Environment σ))}
      {answers : List (Except CompileError (List Column))}
      (hunderway : Underway drivers databases definition task)
      (hhears : Hears drivers databases clock definition workspace task readings)
      (hanswered : readings.mapM answer? = some answers)
      (hprobes : probes.map (·.1) = definition.config.representationsOf)
      (hanswers : Answers drivers databases probes answers)
      (hstep : task.step drivers databases clock definition workspace =
        (.done (.ok node), last)) :
      Stores drivers databases definition probes node last.session

/-- A node that a task comes to was kept, or the last step stores it. -/
theorem exists_stores (hunderway : Underway drivers databases definition task)
    (hstep : task.step drivers databases clock definition workspace =
      (.done (.ok node), last)) :
    task = .done (.ok node) ∨
      (task = .ready ∧ Keeps definition workspace node ∧ last = workspace) ∨
      ∃ probes, Stores drivers databases definition probes node last.session := by
  refine (step_eq_done hstep).imp_right (Or.imp_right ?_)
  rintro ⟨readings, answers, hhears, hanswered, -⟩
  obtain ⟨probes, hprobes, hanswers⟩ := (hhears.comeAll hunderway).exists_probes hanswered
  exact ⟨probes, .made hunderway hhears hanswered hprobes hanswers hstep⟩

namespace Stores

variable {probes : List (Representation × Outcome)} {session : Session}

/-- The columns of the node are put together from what the probes have observed. -/
theorem columns_eq (hstores : Stores drivers databases definition probes node session) :
    probes.map (·.1) = definition.config.representationsOf ∧
      session.node? definition.name = some node ∧
      node.columns = (observed (probes.map (·.2))).foldl
        (fun columns column => column.merge columns) [] := by
  cases hstores with
  | made _ hhears hanswered hprobes hanswers hstep =>
      rcases step_eq_done hstep with rfl | ⟨rfl, hkeeps, -⟩ |
        ⟨readings, answers, hsame, hthere, hcolumns, hstored⟩
      · cases hhears
      · exact absurd hkeeps hhears.not_keeps
      · rw [hsame.unique hhears, hanswered] at hthere
        cases hthere
        rw [← hanswers.observations_eq, hcolumns]
        exact ⟨hprobes, hstored, rfl⟩

theorem harmonises (hstores : Stores drivers databases definition probes node session) :
    Column.Harmonises (observed (probes.map (·.2))) node.columns := by
  rw [hstores.columns_eq.2.2]
  exact Column.harmonises_foldl_merge _

end Stores

/-! ## Tasks with nothing else going on -/

theorem step_ne_ready (drivers : Drivers (Environment σ) γ) (databases : KeyMap String Database)
    (clock : Nat) (definition : NodeDefinition) (task : NodeTask σ) (workspace : Workspace σ) :
    (task.step drivers databases clock definition workspace).1 ≠ .ready := by
  have hsettle (existing : Option Node) (found : List Representation)
      (readings : List (Reading (Environment σ))) (middle : Workspace σ) :
      (settle definition existing found readings middle).1 ≠ .ready := by
    rcases settle_done_or_reading definition existing found readings middle with
      ⟨result, hdone⟩ | ⟨hreading, -⟩
    · rw [hdone]
      nofun
    · rw [hreading]
      nofun
  cases task with
  | done result => nofun
  | reading existing found readings => exact hsettle existing found _ _
  | ready =>
      rcases step_ready_cases drivers databases clock definition workspace with
        ⟨kept, -, hkept⟩ | ⟨error, herror⟩ | ⟨found, middle, -, -, hmade⟩
      · rw [hkept]
        nofun
      · rw [herror]
        nofun
      · rw [hmade]
        exact hsettle _ found _ middle

/-- How far a run of a task has come. What is said of the columns does not matter for where the task
stands, so there is no forecast of them. -/
structure Arrives (drivers : Drivers (Environment σ) γ) (databases : KeyMap String Database)
    (definition : NodeDefinition) (first : Workspace σ) (current : NodeTask σ × Workspace σ) :
    Prop where
  underway : Underway drivers databases definition current.1
  fresh : current.1 = .ready → current.2 = first
  flushed : current.2.session.pending = []
  stands : Stands .silent databases definition (first.session.node? definition.name) current.1
    (current.2.session.node? definition.name)
  ends : ∀ node, current.1 = .done (.ok node) → Keeps definition first node ∨
    ∃ probes, Stores drivers databases definition probes node current.2.session

namespace Arrives

variable {first : Workspace σ} {current : NodeTask σ × Workspace σ}

theorem start (hflushed : first.session.pending = []) :
    Arrives drivers databases definition first (.ready, first) :=
  ⟨.ready, fun _ => rfl, hflushed, .ready, nofun⟩

theorem step (harrives : Arrives drivers databases definition first current) (clock : Nat) :
    Arrives drivers databases definition first
      (current.1.step drivers databases clock definition current.2) := by
  obtain ⟨task, workspace⟩ := current
  obtain ⟨hunderway, hfresh, hflushed, hstands, hends⟩ := harrives
  obtain ⟨after, hafter, hputs⟩ := hstands.step
    (Forecast.silent_holds drivers fun _ => True) clock trivial hflushed rfl
  have hentry : (task.step drivers databases clock definition workspace).2.session.node?
      definition.name = after := Catalog.entryOf?_node.mp hputs.self
  refine ⟨.step hunderway clock workspace,
    fun hready => absurd hready (step_ne_ready drivers databases clock definition task workspace),
    hputs.flushed, hentry ▸ hafter, fun node hnode => ?_⟩
  rcases exists_stores hunderway (Prod.ext hnode rfl) with rfl | ⟨rfl, hkeeps, -⟩ | hstores
  · exact hends node rfl
  · rw [← hfresh rfl]
    exact Or.inl hkeeps
  · exact Or.inr hstores

/-- By induction on the times of the steps. -/
theorem run (hflushed : first.session.pending = []) :
    Arrives drivers databases definition first
      (NodeTask.run drivers databases definition first) := by
  have hall (clocks : List Nat) (current : NodeTask σ × Workspace σ)
      (harrives : Arrives drivers databases definition first current) :
      Arrives drivers databases definition first (clocks.foldl (fun current clock =>
        current.1.step drivers databases clock definition current.2) current) := by
    induction clocks generalizing current with
    | nil => exact harrives
    | cons clock clocks ih => exact ih _ (harrives.step clock)
  exact hall _ _ ((start hflushed).step 0)

end Arrives

/-- Whatever the probes come to, there is a node in the end, which was kept or has been stored. -/
theorem exists_run_eq_ok (drivers : Drivers (Environment σ) γ)
    (hflushed : workspace.session.pending = [])
    (hknown : ∀ representation ∈ definition.config.representationsOf,
      databases.contains representation.database = true) :
    ∃ node, (run drivers databases definition workspace).1 = .done (.ok node) ∧
      (run drivers databases definition workspace).2.session.node? definition.name =
        some node ∧
      (Keeps definition workspace node ∨ ∃ probes, Stores drivers databases definition probes
        node (run drivers databases definition workspace).2.session) := by
  have harrives : Arrives drivers databases definition workspace _ := .run hflushed
  obtain ⟨result, hdone⟩ := exists_run_eq_done drivers databases definition workspace
  obtain ⟨node, hnode, hstored⟩ : ∃ node, result = .ok node ∧
      (run drivers databases definition workspace).2.session.node? definition.name =
        some node := by
    have hstands := harrives.stands
    rw [hdone] at hstands
    generalize (run drivers databases definition workspace).2.session.node? definition.name = entry
      at hstands ⊢
    cases hstands with
    | kept hstored => exact ⟨_, rfl, hstored⟩
    | made => exact ⟨_, rfl, rfl⟩
    | refused _ herror =>
        rw [representations_of_known hknown] at herror
        cases herror
  rw [hnode] at hdone
  exact ⟨node, hdone, hstored, harrives.ends node hdone⟩

/-! ## The main theorem -/

/-- The columns of a compiled node are put together from what the probes of its representations have
observed: one for each name, in the order of first observation, with the greatest type. So they can
be looked up by name in every way, they are the same in another order if the probes or the columns
of a probe are in another order, and failed probes make no difference. -/
theorem columns_harmonised (drivers : Drivers (Environment σ) γ)
    (databases : KeyMap String Database) (definition : NodeDefinition) :
    (∀ workspace : Workspace σ, workspace.session.pending = [] →
      (∀ representation ∈ definition.config.representationsOf,
        databases.contains representation.database = true) →
      ∃ node, (run drivers databases definition workspace).1 = .done (.ok node) ∧
        (run drivers databases definition workspace).2.session.node? definition.name =
          some node ∧
        (Keeps definition workspace node ∨ ∃ probes, Stores drivers databases definition probes
          node (run drivers databases definition workspace).2.session)) ∧
    (∀ (task : NodeTask σ) (clock : Nat) (workspace last : Workspace σ) (node : Node),
      Underway drivers databases definition task →
      task.step drivers databases clock definition workspace = (.done (.ok node), last) →
        task = .done (.ok node) ∨
          (task = .ready ∧ Keeps definition workspace node ∧ last = workspace) ∨
          ∃ probes, Stores drivers databases definition probes node last.session) ∧
    ∀ probes node session, Stores drivers databases definition probes node session →
      probes.map (·.1) = definition.config.representationsOf ∧
      session.node? definition.name = some node ∧
      Column.Harmonises (observed (probes.map (·.2))) node.columns ∧
      (∀ name, columnType? (node.columns.map fun column => (column.name, column.type)) name =
        (node.column? name).map (·.type)) ∧
      ∀ (otherDrivers : Drivers (Environment σ) γ) otherDatabases otherDefinition otherProbes other
        otherSession,
        Stores otherDrivers otherDatabases otherDefinition otherProbes other otherSession →
          (Outcome.Rearranges (probes.map (·.2)) (otherProbes.map (·.2)) →
            node.columns.Perm other.columns) ∧
          ((probes.map (·.2)).filter Outcome.isRead =
              (otherProbes.map (·.2)).filter Outcome.isRead →
            node.columns = other.columns) := by
  refine ⟨fun workspace => exists_run_eq_ok drivers, fun task clock workspace last node =>
    exists_stores, fun probes node session hstores => ?_⟩
  · obtain ⟨hprobes, hstored, hcolumns⟩ := hstores.columns_eq
    refine ⟨hprobes, hstored, hstores.harmonises,
      Node.columnType?_columns hstores.harmonises.distinct,
      fun _ _ _ otherProbes other _ hother => ⟨fun hrearranges => ?_, fun hread => ?_⟩⟩
    · exact hstores.harmonises.perm hother.harmonises hrearranges.perm_observed
    · rw [hcolumns, hother.columns_eq.2.2, ← Outcome.observed_filter_isRead, hread,
        Outcome.observed_filter_isRead]

/-! ### Users in three databases -/

/-- The columns of two of the databases differ in types and order. The third is out of reach. -/
def usersTables : Scripted.State :=
  (((default : Scripted.State).withTable "hive" none "users"
    ⟨[⟨"id", "int"⟩, ⟨"joined", "str"⟩], 0, none⟩).withTable "postgres" none "users"
      ⟨[⟨"joined", "datetime"⟩, ⟨"id", "float"⟩, ⟨"place", "POINT"⟩], 0, none⟩).withUnreachable
        "lake"

def usersDatabase (name : String) : Database :=
  ⟨default, name, "debug://" ++ name, none, ⟨0, 0⟩, ⟨0, 0⟩⟩

def usersDatabases : KeyMap String Database :=
  .ofList (["hive", "lake", "postgres"].map fun name => (name, usersDatabase name))

def usersDefinition (names : List String) : NodeDefinition :=
  ⟨"users", ⟨"nodes/users.yaml"⟩, ⟨1, 0⟩,
    ⟨none, none, names.map fun name => (name, ⟨none, "users"⟩)⟩⟩

def usersWorkspace : Workspace Sources :=
  ⟨.start .empty, ⟨default, ⟨2, 0⟩, 0, ⟨usersTables, .empty⟩⟩⟩

def usersDrivers : Drivers (Environment Sources) Connection := Builtin.drivers [.scripted]

def usersProbe (name : String) : Representation × Outcome :=
  let columnType := usersDrivers.columnType (.scripted name)
  (⟨name, none, "users"⟩,
    match name with
    | "hive" => .read columnType [⟨"id", "int"⟩, ⟨"joined", "str"⟩]
    | "postgres" =>
        .read columnType [⟨"joined", "datetime"⟩, ⟨"id", "float"⟩, ⟨"place", "POINT"⟩]
    | other => .failed (.unreachable other))

/-- The only step that is needed, since the tables are read at once. -/
def usersStep (names : List String) : NodeTask Sources × Workspace Sources :=
  NodeTask.ready.step usersDrivers usersDatabases 0 (usersDefinition names) usersWorkspace

/-- A table of the scripted databases is read. -/
theorem finds_usersTable {name : String} {representation : Representation}
    {native : List NativeColumn} {columnType : String → Option ColumnType}
    (hconnect : (usersDrivers.connect (usersDatabase name).uri usersWorkspace.environment).1 =
      .ok (.scripted name))
    (hfinish : ((usersDrivers.introspect (.scripted name) representation.table
      representation.schema (usersDrivers.connect (usersDatabase name).uri
        usersWorkspace.environment).2).1.finish usersWorkspace.environment).1 = .ok native)
    (htypes : columnType = usersDrivers.columnType (.scripted name)) :
    Finds usersDrivers (usersDatabase name) representation (.read columnType native) := by
  rw [htypes]
  exact .read hconnect hfinish

theorem finds_usersProbe {name : String} (hname : name ∈ ["hive", "lake", "postgres"]) :
    usersDatabases.find? name = some (usersDatabase name) ∧
      Finds usersDrivers (usersDatabase name) (usersProbe name).1 (usersProbe name).2 := by
  rcases List.mem_cons.mp hname with rfl | hname
  · exact ⟨by decide +kernel, finds_usersTable (by decide +kernel) (by decide +kernel) rfl⟩
  rcases List.mem_cons.mp hname with rfl | hname
  · have hconnect : (usersDrivers.connect "debug://lake" usersWorkspace.environment).1 =
        .error (.unreachable "lake") := by
      decide +kernel
    exact ⟨by decide +kernel, .refused hconnect⟩
  · obtain rfl := List.mem_singleton.mp hname
    exact ⟨by decide +kernel, finds_usersTable (by decide +kernel) (by decide +kernel) rfl⟩

theorem stores_usersProbe (names : List String) {node : Node}
    (hnames : ∀ name ∈ names, name ∈ ["hive", "lake", "postgres"])
    (hanswered : (startAll usersDrivers 0 usersDatabases
        (usersDefinition names).config.representationsOf usersWorkspace.environment).1.mapM
          answer? = some (names.map fun name =>
            (usersProbe name).2.answer (usersDatabase name) (usersProbe name).1))
    (hstep : (usersStep names).1.result? = some (.ok node)) :
    Stores usersDrivers usersDatabases (usersDefinition names) (names.map usersProbe) node
      (usersStep names).2.session := by
  have hprobes : (names.map usersProbe).map (·.1) =
      (usersDefinition names).config.representationsOf := by
    simp [usersDefinition, usersProbe, NodeConfig.representationsOf]
  have hknown : ∀ representation ∈ (usersDefinition names).config.representationsOf,
      usersDatabases.contains representation.database = true := by
    rw [← hprobes]
    simp only [List.map_map, List.forall_mem_map]
    intro name hname
    have hfound := (finds_usersProbe (hnames name hname)).1
    exact Option.isSome_iff_exists.mpr ⟨_, hfound⟩
  have hold : (usersDefinition names).IsOutdated
      ((usersWorkspace.session.node? (usersDefinition names).name).map (·.updatedAt)) :=
    Definition.isOutdated_iff.mpr rfl
  have hanswers : Answers usersDrivers usersDatabases (names.map usersProbe)
      (names.map fun name =>
        (usersProbe name).2.answer (usersDatabase name) (usersProbe name).1) := by
    rw [Answers, List.forall₂_map_left_iff, List.forall₂_map_right_iff, List.forall₂_same]
    intro name hname
    obtain ⟨hdatabase, hfinds⟩ := finds_usersProbe (hnames name hname)
    exact ⟨usersDatabase name, hdatabase, hfinds, rfl⟩
  exact .made .ready (.starts hold (representations_of_known hknown)) hanswered hprobes hanswers
    (Prod.ext (Agenda.task_eq_of_result? hstep) rfl)

/-- Two of three databases can be read, in either order. -/
theorem columns_harmonised_users : ∃ (node other : Node) (session otherSession : Session),
    Stores usersDrivers usersDatabases (usersDefinition ["hive", "lake", "postgres"])
      (["hive", "lake", "postgres"].map usersProbe) node session ∧
    Stores usersDrivers usersDatabases (usersDefinition ["postgres", "lake", "hive"])
      (["postgres", "lake", "hive"].map usersProbe) other otherSession ∧
    session.node? "users" = some node ∧
    node.columns = [⟨"id", .int⟩, ⟨"joined", .datetime⟩, ⟨"place", .str⟩] ∧
    other.columns = [⟨"joined", .datetime⟩, ⟨"id", .int⟩, ⟨"place", .str⟩] ∧
    node.columns.Perm other.columns ∧
    columnType? (node.columns.map fun column => (column.name, column.type)) "joined" =
      (node.column? "joined").map (·.type) ∧
    ∃ made, (run usersDrivers usersDatabases (usersDefinition ["hive", "lake", "postgres"])
      usersWorkspace).1 = .done (.ok made) := by
  let made (names : List String) (columns : List Column) : Node :=
    record (usersDefinition names) none (usersDefinition names).config.representationsOf columns
      (.ofRandom 0) ⟨2, 0⟩
  have hfirst : Stores _ _ _ _ (made ["hive", "lake", "postgres"]
      [⟨"id", .int⟩, ⟨"joined", .datetime⟩, ⟨"place", .str⟩]) _ :=
    stores_usersProbe ["hive", "lake", "postgres"] (by decide) (by decide +kernel)
      (by decide +kernel)
  have hsecond : Stores _ _ _ _ (made ["postgres", "lake", "hive"]
      [⟨"joined", .datetime⟩, ⟨"id", .int⟩, ⟨"place", .str⟩]) _ :=
    stores_usersProbe ["postgres", "lake", "hive"] (by decide) (by decide +kernel)
      (by decide +kernel)
  obtain ⟨hruns, -, hall⟩ := columns_harmonised usersDrivers usersDatabases
    (usersDefinition ["hive", "lake", "postgres"])
  obtain ⟨-, hstored, -, hlookup, hothers⟩ := hall _ _ _ hfirst
  have hperm := (hothers _ _ _ _ _ _ hsecond).1
    ⟨_, (List.reverse_perm _).symm, List.forall₂_same.mpr fun outcome _ => .refl outcome⟩
  obtain ⟨node, hdone, -⟩ := hruns usersWorkspace rfl (by decide +kernel)
  exact ⟨_, _, _, _, hfirst, hsecond, hstored, rfl, rfl, hperm, hlookup "joined", node, hdone⟩

end NodeTask

end MetricCatalog
