/-
# Edits are picked up

An entry is kept if its definition was not changed after the entry was made. So
it has to repeat what the file says as long as the file is not newer. It does if
no edit falls between the moment in which a run reads the definition and the one
in which it makes the entry: an edit there is older than the entry, and no later
run ever looks at it.
-/

import MetricCatalog.Proofs.Compile.Upkeep

namespace MetricCatalog

namespace Upkeep

open History

variable {κ σ γ : Type}

/-- An entry is older than the clock. If the last edit has been made, then it repeats what the
definition says, unless the file was changed after it. -/
structure Truthful (final : Prop) (kind : DefinitionKind) (path : Path)
    (environment : Environment σ) (entry : Entry) : Prop where
  made : ¬ environment.now ≤ entry.updatedAt
  saying : final → ∀ modified, environment.files.modified path = .ok modified →
    modified ≤ entry.updatedAt →
    Definition.sayingOf kind environment.files path = .ok entry.saying

/-- A run reads what a definition says. -/
def Reads (k : κ) (kind : DefinitionKind) (path : Path) (event : Event κ) : Prop :=
  ∃ before name modified saying changes,
    event = .stepped k kind path before (.loaded name modified saying) changes ∧
      before.saying? = none

/-- A run has read what the definition says, and it was not edited since. -/
def Fresh (k : κ) (kind : DefinitionKind) (path : Path) (events : List (Event κ)) : Prop :=
  Since (Reads k kind path) (· ≠ .edited) events

/-- A run has begun, and the definition was not edited since. -/
def Unedited (k : κ) (events : List (Event κ)) : Prop :=
  Since (· = .began k) (· ≠ .edited) events

/-- Nothing is committed that changes the entry. -/
def Event.Leaves (kind : DefinitionKind) (name : String) (event : Event κ) : Prop :=
  ∀ k log result, event = .committed k log result →
    ∀ mutation ∈ log, mutation.effectOn kind name = none

/-- A run has begun, and the entry was left alone in the store since. -/
def Unmoved (kind : DefinitionKind) (name : String) (k : κ) (events : List (Event κ)) : Prop :=
  Since (· = .began k) (Event.Leaves kind name) events

/-- When a run makes the entry of the definition, it knows what the definition says now. -/
def Undisturbed (kind : DefinitionKind) (path : Path) (before : List (Event κ))
    (event : Event κ) : Prop :=
  ∀ k progress entry changes, event = .stepped k kind path progress (.ended (.ok entry)) changes →
    changes ≠ [] → Fresh k kind path before

/-- A task belongs to the definition of a kind at a place. -/
structure Placed (root : Path) (kind : DefinitionKind) (place : Path) (task : DefinitionTask σ) :
    Prop where
  kind : task.kind = kind
  isAt : task.IsAt place
  name : ∀ name, task.progress.name? = some name → Definition.nameOf root place = .ok name

/-- What a run knows of the definition is still so. -/
structure IsCurrent (kind : DefinitionKind) (path : Path) (name : String) (upkeep : Upkeep κ σ)
    (run : CompileRun σ) : Prop where
  modified : ∀ task modified, run.tasks kind path = some task →
    task.progress.modified? = some modified →
    upkeep.environment.files.modified path = .ok modified
  ended : ∀ task entry, run.tasks kind path = some task → task.progress = .ended (.ok entry) →
    run.session.view.entryOf? kind name = some entry ∧
      Definition.sayingOf kind upkeep.environment.files path = .ok entry.saying

/-- All entries that a run may put in place are truthful. -/
structure Tracks (final : Prop) (root : Path) (kind : DefinitionKind) (path : Path) (name : String)
    (events : List (Event κ)) (upkeep : Upkeep κ σ) (k : κ) (run : CompileRun σ) : Prop where
  flushed : run.session.pending = []
  view : ∀ entry, run.session.view.entryOf? kind name = some entry →
    Truthful final kind path upkeep.environment entry
  log : ∀ mutation ∈ run.session.log, ∀ entry,
    mutation.effectOn kind name = some (some entry) → Truthful final kind path upkeep.environment entry
  tasks : ∀ other place task, run.tasks other place = some task → Placed root other place task
  alone : ∀ place task, run.tasks kind place = some task →
    Definition.nameOf root place = .ok name → place = path
  replayed : ∃ base, run.session.view.entryOf? kind name =
      Entry.after kind name run.session.log base ∧
    (Unmoved kind name k events → upkeep.store.committed.entryOf? kind name = base)
  saying : Fresh k kind path events ∨ Unedited k events → ∀ task saying,
    run.tasks kind path = some task → task.progress.saying? = some saying →
    Definition.sayingOf kind upkeep.environment.files path = .ok saying
  current : final → Unedited k events → IsCurrent kind path name upkeep run

/-- The entries in the store and in all runs are truthful. -/
structure Sound (final : Prop) (root : Path) (kind : DefinitionKind) (path : Path) (name : String)
    (events : List (Event κ)) (upkeep : Upkeep κ σ) : Prop where
  store : ∀ entry, upkeep.store.committed.entryOf? kind name = some entry →
    Truthful final kind path upkeep.environment entry
  runs : ∀ k run, upkeep.stage k = .underway run →
    Tracks final root kind path name events upkeep k run

/-! ## The file -/

variable {final : Prop} {drivers : Drivers (Environment σ) γ} {root path : Path}
  {kind : DefinitionKind} {name : String} {upkeep : Upkeep κ σ} {events : List (Event κ)} {event : Event κ}
  {environment changed : Environment σ} {entry : Entry} {k : κ} {run : CompileRun σ}

theorem sayingOf_congr {before after : FileTree}
    (htext : after.readText path = before.readText path) :
    Definition.sayingOf kind after path = Definition.sayingOf kind before path := by
  cases kind <;> simp only [Definition.sayingOf, Definition.readConfig, htext]

theorem Truthful.spares (htruthful : Truthful final kind path environment entry)
    (hspares : Spares path environment changed) : Truthful final kind path changed entry where
  made hmade := htruthful.made (Instant.le_trans hspares.clock hmade)
  saying hfinal modified hmodified hle := by
    rw [sayingOf_congr hspares.text]
    exact htruthful.saying hfinal modified (hspares.modified ▸ hmodified) hle

theorem Truthful.mono {weaker : Prop} (htruthful : Truthful final kind path environment entry)
    (hfinal : weaker → final) : Truthful weaker kind path environment entry where
  made := htruthful.made
  saying hweaker := htruthful.saying (hfinal hweaker)

/-- After an edit the file is newer than every entry. -/
theorem Truthful.edit (htruthful : Truthful final kind path environment entry) {text : String}
    {files : FileTree}
    (hwrite : environment.files.write path (.text text) environment.now = .ok files)
    (last : Prop) :
    Truthful last kind path { environment.readClock.2 with files := files } entry where
  made hmade := htruthful.made (Instant.le_trans (Instant.le_advance _ _) hmade)
  saying _ modified hmodified hle := by
    have hnow : modified = environment.now :=
      Except.ok.inj (hmodified.symm.trans (FileTree.modified_write hwrite))
    rw [hnow] at hle
    exact absurd hle htruthful.made

/-! ## Runs that only look on -/

theorem Reads.of_stepped {j : κ} {other : DefinitionKind} {place : Path} {before next : Progress}
    {changes : List Mutation}
    (hreads : Reads k kind path (.stepped j other place before next changes)) :
    k = j ∧ kind = other ∧ path = place ∧ before.saying? = none := by
  obtain ⟨before, name, modified, saying, changes, heq, hunread⟩ := hreads
  injection heq with hrun hkind hplace hbefore
  exact ⟨hrun.symm, hkind.symm, hplace.symm, hbefore ▸ hunread⟩

/-- A run tracks the definition while something else happens that spares its file. -/
theorem Tracks.later (htracks : Tracks final root kind path name events upkeep k run)
    (next : Upkeep κ σ) (hspares : Spares path upkeep.environment next.environment)
    (hbegan : event ≠ .began k) (hreads : ¬ Reads k kind path event)
    (hstore : event.Leaves kind name → next.store.committed.entryOf? kind name =
      upkeep.store.committed.entryOf? kind name) :
    Tracks final root kind path name (events ++ [event]) next k run where
  flushed := htracks.flushed
  view entry hentry := (htracks.view entry hentry).spares hspares
  log mutation hmem entry heffect := (htracks.log mutation hmem entry heffect).spares hspares
  tasks := htracks.tasks
  alone := htracks.alone
  replayed := by
    obtain ⟨base, hview, hbase⟩ := htracks.replayed
    refine ⟨base, hview, fun hunmoved => ?_⟩
    obtain ⟨hbefore, hleaves⟩ := hunmoved.of_concat hbegan
    rw [hstore hleaves, hbase hbefore]
  saying := by
    intro hknown task saying htask hsaying
    rw [sayingOf_congr hspares.text]
    apply htracks.saying _ task saying htask hsaying
    exact hknown.imp (fun hfresh => (hfresh.of_concat hreads).1)
      fun hunedited => (hunedited.of_concat hbegan).1
  current := by
    intro hfinal hunedited
    have hcurrent := htracks.current hfinal (hunedited.of_concat hbegan).1
    constructor
    · rw [hspares.modified]
      exact hcurrent.modified
    · rw [sayingOf_congr hspares.text]
      exact hcurrent.ended

/-- A run tracks the definition while it is edited: what the run has read does not count any
more. -/
theorem Tracks.edit (htracks : Tracks final root kind path name events upkeep k run) {text : String}
    {files : FileTree}
    (hwrite : upkeep.environment.files.write path (.text text) upkeep.environment.now = .ok files)
    (last : Prop) :
    Tracks last root kind path name (events ++ [.edited])
      { upkeep with environment := { upkeep.environment.readClock.2 with files := files } } k
      run where
  flushed := htracks.flushed
  view entry hentry := (htracks.view entry hentry).edit hwrite last
  log mutation hmem entry heffect := (htracks.log mutation hmem entry heffect).edit hwrite last
  tasks := htracks.tasks
  alone := htracks.alone
  replayed := by
    obtain ⟨base, hview, hbase⟩ := htracks.replayed
    exact ⟨base, hview, fun hunmoved => hbase (hunmoved.of_concat (by simp)).1⟩
  saying := by
    rintro (hfresh | hunedited)
    · refine absurd rfl (hfresh.of_concat ?_).2
      rintro ⟨_, _, _, _, _, heq, -⟩
      cases heq
    · exact absurd rfl (hunedited.of_concat (by simp)).2
  current _ hunedited := absurd rfl (hunedited.of_concat (by simp)).2

/-! ## Runs that go on -/

section Work

variable {other : DefinitionKind} {place : Path} {task after : DefinitionTask σ}
  {workspace : Workspace σ} {changes : List Mutation}

/-- A step has an effect on the entry only if it is a step of its definition. -/
theorem Tracks.effectOn (htracks : Tracks final root kind path name events upkeep k run)
    (htask : run.tasks other place = some task)
    (hadvances : Advances root place task ⟨run.session, upkeep.environment⟩ changes
      (after, workspace)) {mutation : Mutation} (hmem : mutation ∈ changes)
    (heffect : mutation.effectOn kind name ≠ none) : kind = other ∧ path = place := by
  have hplaced := htracks.tasks other place task htask
  obtain ⟨hkind, hfound⟩ := hadvances.moves.effectOn hmem heffect
  obtain rfl : kind = other := hkind.trans hplaced.kind
  exact ⟨rfl, (htracks.alone place task htask (hplaced.name name hfound)).symm⟩

/-- What a step makes of the entry is truthful, as the definition was read since its last edit. -/
theorem Tracks.made (htracks : Tracks final root kind path name events upkeep k run)
    (htask : run.tasks other place = some task)
    (hadvances : Advances root place task ⟨run.session, upkeep.environment⟩ changes
      (after, workspace))
    (hspares : Spares path upkeep.environment workspace.environment)
    (hundisturbed : final → Undisturbed kind path events
      (.stepped k other place task.progress after.progress changes))
    {mutation : Mutation} (hmem : mutation ∈ changes)
    (hmade : mutation.effectOn kind name = some (some entry)) :
    Truthful final kind path workspace.environment entry := by
  obtain ⟨rfl, rfl⟩ := htracks.effectOn htask hadvances hmem (by simp [hmade])
  have hkind := (htracks.tasks kind path task htask).kind
  obtain ⟨hended, hsaying, hclock⟩ := hadvances.moves.made hmem (hkind ▸ hmade)
  constructor
  · exact hclock
  · intro hfinal modified _ _
    have hfresh : Fresh k kind path events := by
      apply hundisturbed hfinal k task.progress entry changes
      · exact congrArg (Event.stepped k kind path task.progress · changes) hended
      · exact List.ne_nil_of_mem hmem
    rw [sayingOf_congr hspares.text]
    exact htracks.saying (Or.inl hfresh) task entry.saying htask hsaying

theorem Placed.advance {before : Workspace σ} (hplaced : Placed root other place task)
    (hadvances : Advances root place task before changes (after, workspace)) :
    Placed root other place after where
  kind := hadvances.kind.trans hplaced.kind
  isAt := hadvances.isAt
  name found hfound := by
    rcases hadvances.moves.name? hfound with hbefore | hnamed
    · exact hplaced.name found hbefore
    · exact hnamed

/-- What a run has read is still so after a step. -/
theorem Tracks.saying_work (htracks : Tracks final root kind path name events upkeep k run)
    (htask : run.tasks other place = some task)
    (hadvances : Advances root place task ⟨run.session, upkeep.environment⟩ changes
      (after, workspace))
    (hspares : Spares path upkeep.environment workspace.environment)
    (hknown : Reads k kind path (.stepped k other place task.progress after.progress changes) ∨
      Fresh k kind path events ∨ Unedited k events) {next : DefinitionTask σ} {saying : Saying}
    (hnext : (run.goOn other place workspace.session after).tasks kind path = some next)
    (hsaying : next.progress.saying? = some saying) :
    Definition.sayingOf kind workspace.environment.files path = .ok saying := by
  rw [sayingOf_congr hspares.text]
  by_cases hsame : kind = other ∧ path = place
  · obtain ⟨rfl, rfl⟩ := hsame
    obtain rfl := Option.some.inj ((run.tasks_goOn_self _ _ _ after).symm.trans hnext)
    rcases hadvances.moves.saying? hsaying with hbefore | hread
    · rcases hknown with hreads | hknown
      · rw [hreads.of_stepped.2.2.2] at hbefore
        cases hbefore
      · exact htracks.saying hknown task saying htask hbefore
    · rw [(htracks.tasks kind path task htask).kind] at hread
      exact hread
  · rw [CompileRun.tasks_goOn_of_ne hsame] at hnext
    rcases hknown with hreads | hknown
    · exact absurd ⟨hreads.of_stepped.2.1, hreads.of_stepped.2.2.1⟩ hsame
    · exact htracks.saying hknown next saying hnext hsaying

variable [DecidableEq κ]

/-- What a run knows of the definition is still so after a step of another one. -/
theorem IsCurrent.work_of_ne (hcurrent : IsCurrent kind path name upkeep run)
    (hspares : Spares path upkeep.environment workspace.environment)
    (hmakes : run.session.Makes changes workspace.session)
    (hne : ¬ (kind = other ∧ path = place))
    (hnone : ∀ mutation ∈ changes, mutation.effectOn kind name = none) (stage : CompileStage σ) :
    IsCurrent kind path name
      ({ upkeep with environment := workspace.environment }.put k stage)
      (run.goOn other place workspace.session after) := by
  have hview : workspace.session.view.entryOf? kind name =
      run.session.view.entryOf? kind name :=
    hmakes.entryOf?_view.trans (Entry.after_of_none hnone)
  constructor
  · intro found modified hfound hmodified
    rw [CompileRun.tasks_goOn_of_ne hne] at hfound
    exact hspares.modified.trans (hcurrent.modified found modified hfound hmodified)
  · intro found entry hfound hended
    rw [CompileRun.tasks_goOn_of_ne hne] at hfound
    obtain ⟨hentry, hsaying⟩ := hcurrent.ended found entry hfound hended
    exact ⟨hview.trans hentry, (sayingOf_congr hspares.text).trans hsaying⟩

/-- What a run knows of the definition is so after a step of its own. -/
theorem IsCurrent.work_self (hcurrent : IsCurrent kind path name upkeep run)
    (htracks : Tracks final root kind path name events upkeep k run) (hfinal : final)
    (hunedited : Unedited k events)
    (hname : Definition.nameOf root path = .ok name) (htask : run.tasks kind path = some task)
    (hadvances : Advances root path task ⟨run.session, upkeep.environment⟩ changes
      (after, workspace))
    (hspares : Spares path upkeep.environment workspace.environment) (stage : CompileStage σ) :
    IsCurrent kind path name
      ({ upkeep with environment := workspace.environment }.put k stage)
      (run.goOn kind path workspace.session after) := by
  have hplaced := htracks.tasks kind path task htask
  have hself := run.tasks_goOn_self kind path workspace.session after
  have hnamed : ∀ found, task.progress.name? = some found → found = name := fun found hfound =>
    Except.ok.inj ((hplaced.name found hfound).symm.trans hname)
  have hview : workspace.session.view.entryOf? kind name =
      Entry.after kind name changes (run.session.view.entryOf? kind name) :=
    hadvances.makes.entryOf?_view
  have hmoves := hadvances.moves
  rw [hplaced.kind] at hmoves
  constructor
  · intro found modified hfound hmodified
    obtain rfl := Option.some.inj (hself.symm.trans hfound)
    apply hspares.modified.trans
    rcases hmoves.modified? hmodified with hbefore | hfile
    · exact hcurrent.modified task modified htask hbefore
    · exact hfile
  · intro found entry hfound hended
    obtain rfl := Option.some.inj (hself.symm.trans hfound)
    show workspace.session.view.entryOf? kind name = some entry ∧
      Definition.sayingOf kind workspace.environment.files path = .ok entry.saying
    rw [hview, sayingOf_congr hspares.text]
    rw [hended] at hmoves
    rcases hmoves.ended with ⟨hbefore, rfl⟩ |
      ⟨found, modified, hfound, hmodified, hentry, hle, rfl⟩ | ⟨found, hfound, hsaying, hmade⟩
    · exact hcurrent.ended task entry htask hbefore
    · -- The entry is kept: it is truthful, and the file is not newer.
      obtain rfl := hnamed found hfound
      exact ⟨hentry, (htracks.view entry hentry).saying hfinal modified
        (hcurrent.modified task modified htask hmodified) hle⟩
    · obtain rfl := hnamed found hfound
      exact ⟨hmade _, htracks.saying (Or.inr hunedited) task entry.saying htask hsaying⟩

/-- A run tracks the definition while it works on it or on another one. -/
theorem Tracks.work (htracks : Tracks final root kind path name events upkeep k run)
    (hname : Definition.nameOf root path = .ok name)
    (htask : run.tasks other place = some task)
    (hadvances : Advances root place task ⟨run.session, upkeep.environment⟩ changes
      (after, workspace))
    (hspares : Spares path upkeep.environment workspace.environment)
    (hundisturbed : final → Undisturbed kind path events
      (.stepped k other place task.progress after.progress changes)) (stage : CompileStage σ) :
    Tracks final root kind path name
      (events ++ [.stepped k other place task.progress after.progress changes])
      ({ upkeep with environment := workspace.environment }.put k stage) k
      (run.goOn other place workspace.session after) := by
  have hmade : ∀ mutation ∈ changes, ∀ entry,
      mutation.effectOn kind name = some (some entry) →
        Truthful final kind path workspace.environment entry :=
    fun mutation hmem entry => htracks.made htask hadvances hspares hundisturbed hmem
  have hbegan : Event.stepped k other place task.progress after.progress changes ≠ .began k :=
    nofun
  constructor
  case flushed => exact hadvances.makes.flushed
  case view =>
    intro entry hentry
    change workspace.session.view.entryOf? kind name = some entry at hentry
    rw [hadvances.makes.entryOf?_view] at hentry
    rcases Entry.after_cases hentry with hbefore | ⟨mutation, hmem, heffect⟩
    · exact (htracks.view entry hbefore).spares hspares
    · exact hmade mutation hmem entry heffect
  case log =>
    intro mutation hmem entry heffect
    change mutation ∈ workspace.session.log at hmem
    rw [hadvances.makes.log] at hmem
    rcases List.mem_append.mp hmem with hbefore | hnew
    · exact (htracks.log mutation hbefore entry heffect).spares hspares
    · exact hmade mutation hnew entry heffect
  case tasks =>
    intro found spot next hnext
    by_cases hsame : found = other ∧ spot = place
    · obtain ⟨rfl, rfl⟩ := hsame
      obtain rfl := Option.some.inj ((run.tasks_goOn_self _ _ _ after).symm.trans hnext)
      exact (htracks.tasks found spot task htask).advance hadvances
    · rw [CompileRun.tasks_goOn_of_ne hsame] at hnext
      exact htracks.tasks found spot next hnext
  case alone =>
    intro spot next hnext
    by_cases hsame : kind = other ∧ spot = place
    · obtain ⟨rfl, rfl⟩ := hsame
      exact htracks.alone spot task htask
    · rw [CompileRun.tasks_goOn_of_ne hsame] at hnext
      exact htracks.alone spot next hnext
  case replayed =>
    obtain ⟨base, hview, hbase⟩ := htracks.replayed
    refine ⟨base, ?_, fun hunmoved => hbase (hunmoved.of_concat hbegan).1⟩
    show workspace.session.view.entryOf? kind name = Entry.after kind name workspace.session.log _
    rw [hadvances.makes.entryOf?_view, hadvances.makes.log, Entry.after_append, hview]
  case saying =>
    intro hknown next saying hnext hsaying
    apply htracks.saying_work htask hadvances hspares _ hnext hsaying
    rcases hknown with hfresh | hunedited
    · exact (since_concat.mp hfresh).imp_right fun hbefore => Or.inl hbefore.1
    · exact Or.inr (Or.inr (hunedited.of_concat hbegan).1)
  case current =>
    intro hfinal hunedited
    have hbefore := (hunedited.of_concat hbegan).1
    have hcurrent := htracks.current hfinal hbefore
    by_cases hsame : kind = other ∧ path = place
    · obtain ⟨rfl, rfl⟩ := hsame
      exact hcurrent.work_self htracks hfinal hbefore hname htask hadvances hspares stage
    · apply hcurrent.work_of_ne hspares hadvances.makes hsame
      intro mutation hmem
      by_contra heffect
      exact hsame (htracks.effectOn htask hadvances hmem heffect)

end Work

end Upkeep

end MetricCatalog
