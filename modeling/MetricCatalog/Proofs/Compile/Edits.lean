/-
# Edits are picked up

A run that begins after an edit takes what the definition says by then into the
catalog, if each entry that was made before repeats what its definition said at
that time. An entry is made in the order of the clock, but what it says was read
earlier: an edit in between is older than the entry, so it looks as if it had
been picked up, and no later run ever looks at it.
-/

import MetricCatalog.Proofs.Catalog.Serial
import MetricCatalog.Proofs.Compile.Tracking
import MetricCatalog.Source.Builtin

namespace MetricCatalog

variable {κ σ γ : Type}

/-- A commit does to each entry what its log does, or it leaves the store as it is. -/
theorem Store.commit_cases {store next : Store} {session : Session}
    {environment after : Environment σ} {result : Except StoreError Catalog}
    (hflushed : session.pending = [])
    (hcommit : store.commit session environment = (result, next, after)) :
    (result = .ok next.committed ∧ ∀ kind name, next.committed.entryOf? kind name =
      Entry.after kind name session.log (store.committed.entryOf? kind name)) ∨
    ∃ error, result = .error error ∧ next = store := by
  obtain ⟨view, pending, log⟩ := session
  obtain rfl : pending = [] := hflushed
  change store.commitLog (log ++ []) environment = _ at hcommit
  rw [List.append_nil] at hcommit
  rcases store.commitLog_cases log environment with
    ⟨catalog, hreplay, hresult, hstore⟩ | ⟨error, hresult, hstore⟩
  · rw [hcommit] at hresult hstore
    obtain rfl : next = { store with committed := catalog } := hstore
    refine Or.inl ⟨hresult, fun kind name => ?_⟩
    rw [← Catalog.entryOf?_applyAll (World.exists_applyAll_of_replay hreplay).1,
      Catalog.entryOf?_withVersion]
  · rw [hcommit] at hresult hstore
    exact Or.inr ⟨error, hresult, hstore⟩

namespace Upkeep

open History

/-- No other definition of the kind has the name of the one at a path. -/
def HasOwnName (root : Path) (kind : DefinitionKind) (path : Path) (event : Event κ) : Prop :=
  ∀ k paths, event = .found k kind paths →
    ∀ place ∈ paths, Definition.nameOf root place = Definition.nameOf root path → place = path

variable {final : Prop} {drivers : Drivers (Environment σ) γ} {root path : Path}
  {kind : DefinitionKind} {name : String} {upkeep next : Upkeep κ σ} {events : List (Event κ)} {event : Event κ}
  {k : κ} {run : CompileRun σ}

/-! ## The course of a run -/

/-- It does not matter any more what the definition said before. -/
theorem Sound.edit (hsound : Sound final root kind path name events upkeep) {text : String}
    {files : FileTree}
    (hwrite : upkeep.environment.files.write path (.text text) upkeep.environment.now = .ok files)
    (last : Prop) :
    Sound last root kind path name (events ++ [.edited])
      { upkeep with environment := { upkeep.environment.readClock.2 with files := files } } where
  store entry hentry := (hsound.store entry hentry).edit hwrite last
  runs k run hstage := (hsound.runs k run hstage).edit hwrite last

variable [DecidableEq κ]

/-- A run that begins has read nothing, and its view is that of the store. -/
theorem Sound.tracks_begin (hsound : Sound final root kind path name events upkeep)
    (stage : CompileStage σ) :
    Tracks final root kind path name (events ++ [.began k]) (upkeep.put k stage) k
      ⟨upkeep.store.begin, fun _ _ => none⟩ where
  flushed := rfl
  view := hsound.store
  log mutation hmem := by cases hmem
  tasks other place task htask := by cases htask
  alone place task htask := by cases htask
  saying hknown task saying htask := by cases htask
  replayed := ⟨_, rfl, fun _ => rfl⟩
  current _ _ := by
    constructor
    · intro task modified htask
      cases htask
    · intro task entry htask
      cases htask

/-- What is known of a definition that was just found is nothing. -/
theorem progress_ofPath (place : Path) (other : DefinitionKind) :
    (DefinitionTask.ofPath place other : DefinitionTask σ).progress = .found := by
  cases other <;> rfl

theorem placed_ofPath (root place : Path) (other : DefinitionKind) :
    Placed root other place (DefinitionTask.ofPath place other : DefinitionTask σ) where
  kind := by cases other <;> rfl
  isAt := by cases other <;> trivial
  name found hfound := by
    rw [progress_ofPath] at hfound
    cases hfound

/-- A run tracks the definition while it looks for definitions. -/
theorem Tracks.search (htracks : Tracks final root kind path name events upkeep k run)
    (hname : Definition.nameOf root path = .ok name) {other : DefinitionKind} {paths : List Path}
    (hown : HasOwnName root kind path (.found k other paths)) (stage : CompileStage σ) :
    Tracks final root kind path name (events ++ [.found k other paths]) (upkeep.put k stage) k
      (run.find other paths) := by
  have hbefore : ∀ task, (run.find other paths).tasks kind path = some task →
      task.progress ≠ .found → run.tasks kind path = some task := by
    intro task htask hprogress
    rcases CompileRun.tasks_find_cases htask with ⟨-, -, rfl⟩ | hbefore
    · exact absurd (progress_ofPath path other) hprogress
    · exact hbefore
  have hbegan : Event.found k other paths ≠ .began k := nofun
  constructor
  case flushed => exact htracks.flushed
  case view => exact htracks.view
  case log => exact htracks.log
  case tasks =>
    intro found place task htask
    rcases CompileRun.tasks_find_cases htask with ⟨rfl, -, rfl⟩ | hbefore
    · exact placed_ofPath root place found
    · exact htracks.tasks found place task hbefore
  case alone =>
    intro place task htask hplace
    rcases CompileRun.tasks_find_cases htask with ⟨rfl, hmem, -⟩ | hbefore
    · exact hown k paths rfl place hmem (hplace.trans hname.symm)
    · exact htracks.alone place task hbefore hplace
  case replayed =>
    obtain ⟨base, hview, hbase⟩ := htracks.replayed
    exact ⟨base, hview, fun hunmoved => hbase (hunmoved.of_concat hbegan).1⟩
  case saying =>
    intro hknown task saying htask hsaying
    apply htracks.saying _ task saying (hbefore task htask _) hsaying
    · refine hknown.imp (fun hfresh => (hfresh.of_concat ?_).1)
        fun hunedited => (hunedited.of_concat hbegan).1
      rintro ⟨_, _, _, _, _, heq, -⟩
      cases heq
    · intro hfound
      rw [hfound] at hsaying
      cases hsaying
  case current =>
    intro hfinal hunedited
    have hcurrent := htracks.current hfinal (hunedited.of_concat hbegan).1
    constructor
    · intro task modified htask hmodified
      apply hcurrent.modified task modified (hbefore task htask _) hmodified
      intro hfound
      rw [hfound] at hmodified
      cases hmodified
    · intro task entry htask hended
      apply hcurrent.ended task entry (hbefore task htask _) hended
      simp [hended]

/-! ## Single steps -/

/-- After a step of one run, the others only have to look on. -/
theorem Sound.put (hsound : Sound final root kind path name events upkeep) (next : Upkeep κ σ)
    (hrun : event.run? = some k) (hspares : Spares path upkeep.environment next.environment)
    (hstages : next.stage = upkeep.stage)
    (hleaves : event.Leaves kind name →
      next.store.committed.entryOf? kind name = upkeep.store.committed.entryOf? kind name)
    (hstore : ∀ entry, next.store.committed.entryOf? kind name = some entry →
      Truthful final kind path next.environment entry) {stage : CompileStage σ}
    (hself : ∀ run, stage = .underway run →
      Tracks final root kind path name (events ++ [event]) (next.put k stage) k run) :
    Sound final root kind path name (events ++ [event]) (next.put k stage) where
  store := hstore
  runs j run hstage := by
    by_cases hj : j = k
    · subst hj
      rw [stage_put_self] at hstage
      exact hself run hstage
    · rw [stage_put_of_ne _ hj, hstages] at hstage
      apply (hsound.runs j run hstage).later (next.put k stage) hspares
      · rintro rfl
        exact hj (Option.some.inj hrun)
      · rintro ⟨_, _, _, _, _, rfl, -⟩
        exact hj (Option.some.inj hrun)
      · intro hevent
        exact hleaves hevent

theorem Sound.step (hsound : Sound final root kind path name events upkeep)
    (hname : Definition.nameOf root path = .ok name)
    (hstep : Step drivers root path upkeep event next)
    (hown : HasOwnName root kind path event)
    (hundisturbed : final → Undisturbed kind path events event) :
    Sound final root kind path name (events ++ [event]) next := by
  cases hstep with
  | edit hwrite => exact hsound.edit hwrite final
  | elsewhere hspares hentries =>
      constructor
      · intro entry hentry
        exact (hsound.store entry ((hentries kind name).symm.trans hentry)).spares hspares
      · intro k run hstage
        apply (hsound.runs k run hstage).later _ hspares (by simp) _ fun _ => hentries kind name
        rintro ⟨_, _, _, _, _, heq, -⟩
        cases heq
  | begin habsent =>
      apply hsound.put upkeep rfl (Spares.refl path _) rfl (fun _ => rfl) hsound.store
      rintro run ⟨⟩
      exact hsound.tracks_begin _
  | search hrun other hpaths hnew =>
      apply hsound.put upkeep rfl (Spares.refl path _) rfl (fun _ => rfl) hsound.store
      rintro run ⟨⟩
      exact (hsound.runs _ _ hrun).search hname hown _
  | @work k run other place task after workspace changes hrun htask clock hstep hlog hspares =>
      have htracks := hsound.runs _ _ hrun
      obtain ⟨made, hadvances⟩ : ∃ made, Advances root place task
          ⟨run.session, upkeep.environment⟩ made (after, workspace) := by
        rw [← hstep]
        exact DefinitionTask.step_advances drivers clock
          (htracks.tasks other place task htask).isAt htracks.flushed
      obtain rfl : changes = made :=
        List.append_cancel_left (hlog.symm.trans hadvances.makes.log)
      apply hsound.put { upkeep with environment := workspace.environment } rfl hspares rfl
        (fun _ => rfl)
      · intro entry hentry
        exact (hsound.store entry hentry).spares hspares
      · rintro run ⟨⟩
        exact htracks.work hname htask hadvances hspares hundisturbed _
  | @commit k run result store environment hrun hcommit hspares =>
      have htracks := hsound.runs _ _ hrun
      apply hsound.put { upkeep with environment := environment, store := store } rfl hspares rfl
      · intro hleaves
        rcases Store.commit_cases htracks.flushed hcommit with ⟨-, hentries⟩ | ⟨-, -, rfl⟩
        · rw [hentries, Entry.after_of_none (hleaves k _ result rfl)]
        · rfl
      · intro entry hentry
        rcases Store.commit_cases htracks.flushed hcommit with ⟨-, hentries⟩ | ⟨-, -, rfl⟩
        · rcases Entry.after_cases ((hentries kind name).symm.trans hentry) with
            hbefore | ⟨mutation, hmem, heffect⟩
          · exact (hsound.store entry hbefore).spares hspares
          · exact (htracks.log mutation hmem entry heffect).spares hspares
        · exact (hsound.store entry hentry).spares hspares
      · rintro run ⟨⟩

/-! ## Runs -/

variable {environment : Environment σ} {store : Store}

/-- By induction on the run: the clock is ahead of all entries. -/
theorem Run.past (hrun : Run drivers root path (idle environment store) events upkeep)
    (hname : Definition.nameOf root path = .ok name)
    (hfirst : ∀ entry, store.committed.entryOf? kind name = some entry →
      Truthful False kind path environment entry)
    (hown : ∀ event ∈ events, HasOwnName root kind path event) :
    Sound False root kind path name events upkeep := by
  induction hrun with
  | nil =>
      constructor
      · exact hfirst
      · rintro k run ⟨⟩
  | @step events upkeep next event prior hstep ih =>
      apply Sound.step _ hname hstep (hown event (by simp)) False.elim
      exact ih fun earlier hearlier => hown earlier (by simp [hearlier])

/-- What is made of the definition after its last edit is made from what it says since then. -/
def LastEditSeen (kind : DefinitionKind) (path : Path) (events : List (Event κ)) : Prop :=
  ∀ before event after, events = before ++ event :: after → .edited ∉ after →
    Undisturbed kind path before event

omit [DecidableEq κ] in
theorem lastEditSeen_append {batch : List (Event κ)}
    (hbatch : Along (fun before => Undisturbed kind path (events ++ [.edited] ++ before)) batch) :
    LastEditSeen kind path (events ++ [.edited] ++ batch) := by
  intro before event after hsplit hafter
  rcases List.append_eq_append_iff.mp hsplit with ⟨middle, rfl, hrest⟩ | ⟨middle, hfirst, hrest⟩
  · exact hbatch middle event after hrest
  · cases middle with
    | nil =>
        have hnow := hbatch [] event after hrest.symm
        simpa only [hfirst, List.append_nil] using hnow
    | cons first middle =>
        -- The edit comes after the event, unless the event is the edit.
        obtain ⟨rfl, rfl⟩ := List.cons.inj hrest
        rcases List.eq_nil_or_concat middle with rfl | ⟨earlier, last, rfl⟩
        · obtain ⟨-, heq⟩ := List.append_inj' hfirst rfl
          rintro _ _ _ _ rfl
          cases heq
        · rw [List.concat_eq_append, ← List.cons_append, ← List.append_assoc] at hfirst
          obtain ⟨-, heq⟩ := List.append_inj' hfirst rfl
          simp [← (List.cons.inj heq).1] at hafter

/-- By induction on the run: after the last edit no entry that is put in place says anything but
its file, unless the file is newer. -/
theorem Run.sound (hrun : Run drivers root path (idle environment store) events upkeep)
    (hname : Definition.nameOf root path = .ok name)
    (hfirst : ∀ entry, store.committed.entryOf? kind name = some entry →
      Truthful (.edited ∉ events) kind path environment entry)
    (hown : ∀ event ∈ events, HasOwnName root kind path event)
    (hseen : LastEditSeen kind path events) :
    Sound True root kind path name events upkeep := by
  induction hrun with
  | nil =>
      constructor
      · exact fun entry hentry => (hfirst entry hentry).mono fun _ => by simp
      · rintro k run ⟨⟩
  | @step events upkeep next event prior hstep ih =>
      have hearlier : ∀ event ∈ events, HasOwnName root kind path event :=
        fun earlier hearlier => hown earlier (by simp [hearlier])
      by_cases hedited : event = .edited
      · have hpast := prior.past hname
          (fun entry hentry => (hfirst entry hentry).mono False.elim) hearlier
        subst hedited
        cases hstep with
        | edit hwrite => exact hpast.edit hwrite True
      · have hnot : Event.edited ∉ [event] := by simp [Ne.symm hedited]
        apply Sound.step _ hname hstep (hown event (by simp))
        · exact fun _ => hseen events event [] rfl (by simp)
        · apply ih _ hearlier
          · rintro before earlier after rfl hafter
            apply hseen before earlier (after ++ [event]) (by simp)
            exact List.not_mem_append hafter hnot
          · intro entry hentry
            exact (hfirst entry hentry).mono fun hevents => List.not_mem_append hevents hnot

/-- A definition that has ended stays as it is. -/
theorem step_of_ended {task : DefinitionTask σ} {result : Except CompileError Entry}
    (hended : task.progress = .ended result) (place : Path) (clock : Nat)
    (workspace : Workspace σ) :
    task.step drivers root place clock workspace = (task, workspace) := by
  cases task with
  | database task =>
      cases task with
      | done => rfl
      | found | dated | outdated | loaded => cases hended
  | node stage =>
      cases stage with
      | unloaded => rfl
      | found | dated => cases hended
      | compiling definition task =>
          cases task with
          | done => rfl
          | ready | reading => cases hended

/-- In a run that is not over, a definition has ended. -/
def HasEnded (kind : DefinitionKind) (place : Path) (result : Except CompileError Entry) :
    CompileStage σ → Prop
  | .absent => False
  | .underway run => ∃ task, run.tasks kind place = some task ∧ task.progress = .ended result
  | .over => True

variable {place : Path} {result : Except CompileError Entry}

theorem HasEnded.step (hended : HasEnded kind place result (upkeep.stage k))
    (hstep : Step drivers root path upkeep event next) :
    HasEnded kind place result (next.stage k) := by
  cases hstep with
  | edit | elsewhere => exact hended
  | @begin j habsent =>
      by_cases hk : k = j
      · subst hk
        rw [habsent] at hended
        exact hended.elim
      · rwa [stage_put_of_ne _ hk]
  | @search j run hrun other paths hpaths hnew =>
      by_cases hk : k = j
      · subst hk
        rw [hrun] at hended
        obtain ⟨task, htask, hprogress⟩ := hended
        have hne : kind ≠ other := by
          rintro rfl
          rw [hnew place] at htask
          cases htask
        rw [stage_put_self]
        refine ⟨task, ?_, hprogress⟩
        rw [CompileRun.tasks_find_of_ne hne, htask]
      · rwa [stage_put_of_ne _ hk]
  | @work j run other spot task after workspace changes hrun htask clock hstep hlog hspares =>
      by_cases hk : k = j
      · subst hk
        rw [hrun] at hended
        obtain ⟨found, hfound, hprogress⟩ := hended
        rw [stage_put_self]
        by_cases hsame : kind = other ∧ place = spot
        · obtain ⟨rfl, rfl⟩ := hsame
          obtain rfl := Option.some.inj (hfound.symm.trans htask)
          rw [step_of_ended hprogress] at hstep
          cases hstep
          exact ⟨_, CompileRun.tasks_goOn_self .., hprogress⟩
        · refine ⟨found, ?_, hprogress⟩
          rw [CompileRun.tasks_goOn_of_ne hsame, hfound]
      · rwa [stage_put_of_ne _ hk]
  | @commit j run =>
      by_cases hk : k = j
      · subst hk
        rw [stage_put_self]
        trivial
      · rwa [stage_put_of_ne _ hk]

theorem Step.hasEnded {progress : Progress} {changes : List Mutation}
    (hstep : Step drivers root path upkeep event next)
    (hevent : event = .stepped k kind place progress (.ended result) changes) :
    HasEnded kind place result (next.stage k) := by
  cases hstep with
  | edit | elsewhere | begin | search | commit => cases hevent
  | @work j run other spot task after =>
      injection hevent with hk hkind hplace _ hended
      subst hk hkind hplace
      rw [stage_put_self]
      exact ⟨after, CompileRun.tasks_goOn_self .., hended⟩

/-- By induction on the run: what has ended in a run does not begin again. -/
theorem Run.hasEnded {first : Upkeep κ σ} (hrun : Run drivers root path first events upkeep)
    {progress : Progress} {changes : List Mutation}
    (hmem : .stepped k kind place progress (.ended result) changes ∈ events) :
    HasEnded kind place result (upkeep.stage k) := by
  induction hrun with
  | nil => cases hmem
  | step prior hstep ih =>
      rcases List.mem_append.mp hmem with hbefore | hlast
      · exact (ih hbefore).step hstep
      · exact hstep.hasEnded (List.mem_singleton.mp hlast).symm

/-- If no entry was ever made from what its file did not say any more, then a run that begins after
the last edit of a definition, and compiles it, leaves in the store what its file says. -/
theorem run_catches_edits {front back : List (Event κ)} {last : Upkeep κ σ} {log : List Mutation}
    {catalog : Catalog} {progress : Progress} {entry : Entry} {changes : List Mutation}
    (hname : Definition.nameOf root path = .ok name)
    (hfirst : ∀ entry, store.committed.entryOf? kind name = some entry →
      Truthful (.edited ∉ front) kind path environment entry)
    (hrun : Run drivers root path (idle environment store)
      ((front ++ .began k :: back) ++ [.committed k log (.ok catalog)]) last)
    (hown : ∀ event ∈ front ++ .began k :: back, HasOwnName root kind path event)
    (hseen : LastEditSeen kind path (front ++ .began k :: back))
    (hedited : .edited ∉ back)
    (hleft : (∀ mutation ∈ log, mutation.effectOn kind name = none) →
      ∀ event ∈ back, event.Leaves kind name)
    (hcompiled : .stepped k kind path progress (.ended (.ok entry)) changes ∈ back) :
    last.store.committed = catalog ∧ catalog.entryOf? kind name = some entry ∧
      Definition.sayingOf kind last.environment.files path = .ok entry.saying := by
  generalize hevents : (front ++ .began k :: back) ++ [.committed k log (.ok catalog)] = events
    at hrun
  cases hrun with
  | nil => simp at hevents
  | @step events upkeep last event prior hstep =>
      obtain ⟨rfl, heq⟩ := List.append_inj' hevents rfl
      obtain rfl := (List.cons.inj heq).1
      have hsound := prior.sound hname
        (fun entry hentry => (hfirst entry hentry).mono fun hnot hmem => hnot (by simp [hmem]))
        hown hseen
      have hended := prior.hasEnded (List.mem_append_right _ (List.mem_cons_of_mem _ hcompiled))
      cases hstep with
      | @commit _ run _ store environment hstage hcommit hspares =>
          have htracks := hsound.runs k run hstage
          rw [hstage] at hended
          obtain ⟨task, htask, hprogress⟩ := hended
          have hunedited : Unedited k (front ++ .began k :: back) := by
            refine ⟨front, _, back, rfl, rfl, ?_⟩
            rintro event hevent rfl
            exact hedited hevent
          obtain ⟨hentry, hsaying⟩ :=
            (htracks.current trivial hunedited).ended task entry htask hprogress
          obtain ⟨base, hview, hbase⟩ := htracks.replayed
          rcases Store.commit_cases htracks.flushed hcommit with ⟨hresult, hentries⟩ | ⟨_, heq, -⟩
          · obtain rfl : catalog = store.committed := Except.ok.inj hresult
            refine ⟨rfl, ?_, ?_⟩
            · rw [hentries, ← hentry, hview]
              rcases Entry.after_eq_or run.session.log with hnone | hsame
              · rw [hbase ⟨front, _, back, rfl, rfl, hleft hnone⟩]
              · exact hsame _ _
            · exact (sayingOf_congr hspares.text).trans hsaying
          · cases heq

/-! ## One node -/

section

variable {definition : NodeDefinition}

omit [DecidableEq κ]

theorem fresh_loading :
    Fresh k .node definition.path (events ++ .began k :: loading k definition) := by
  refine ⟨events ++ .began k :: (loading k definition).take 2, .stepped k .node definition.path
    (.dated definition.name definition.modified)
    (.loaded definition.name (some definition.modified) definition.config.saying) [], [], ?_,
    ⟨_, _, _, _, _, rfl, rfl⟩, by simp⟩
  simp [loading]

/-- A run that makes a node from what it has just read is undisturbed. -/
theorem along_loading (events : List (Event κ)) {progress next : Progress}
    {changes : List Mutation} :
    Along (fun before => Undisturbed .node definition.path (events ++ before))
      (.began k :: (loading k definition ++
        [.stepped k .node definition.path progress next changes])) := by
  rw [← List.cons_append]
  refine Along.concat ?_ ?_
  · rintro before event after hsplit j progress entry changes rfl
    have hmem : Event.stepped j .node definition.path progress (.ended (.ok entry)) changes ∈
        Event.began k :: loading k definition := by
      rw [hsplit]
      simp
    simp [loading] at hmem
  · intro j before entry more heq hmore
    obtain ⟨rfl, -⟩ := Event.stepped.inj heq
    exact fresh_loading

theorem leaves_loading {other : DefinitionKind} {progress next : Progress}
    {changes : List Mutation}
    (hevent : event ∈ loading k definition ++ [.stepped k other place progress next changes]) :
    event.Leaves kind name := by
  rintro j log result rfl
  simp [loading] at hevent

end

def repositoryPath : Path := ⟨"repository"⟩

def usersPath : Path := ⟨"repository/nodes/users.yaml"⟩

/-- A repository with the definition of a node in it. -/
def repositoryWith (description : String) (modified : Instant) : FileTree :=
  ⟨.ofList [(["repository"], .directory ⟨0, 0⟩), (["repository", "nodes"], .directory ⟨0, 0⟩),
    (["repository", "nodes", "users.yaml"],
      .file (.text ("description: " ++ description)) modified)], []⟩

def usersDefinition (description : String) (modified : Instant) : NodeDefinition :=
  ⟨"users", usersPath, modified, ⟨some description, none, []⟩⟩

def surroundings (description : String) (modified now : Instant) (seed : Nat) :
    Builtin.Surroundings :=
  ⟨repositoryWith description modified, now, seed, default⟩

def usersNode (description : String) (createdAt updatedAt : Instant) (seed : Nat) : Node :=
  ⟨.ofRandom seed, "users", some description, none, [], [], createdAt, updatedAt⟩

/-- A catalog with one node. -/
def usersCatalog (node : Node) (version : UInt64) : Catalog :=
  { Catalog.empty with nodes := .ofList [("users", node)], version := version }

/-- The drivers of the program. -/
abbrev allDrivers : Drivers Builtin.Surroundings Connection :=
  Builtin.drivers [.scripted, .embedded]

theorem loadsOnly_before : LoadsOnly repositoryPath (repositoryWith "before" ⟨0, 0⟩)
    (usersDefinition "before" ⟨0, 0⟩) :=
  ⟨by decide +kernel, by decide +kernel, by decide +kernel, by decide +kernel⟩

theorem loadsOnly_after : LoadsOnly repositoryPath (repositoryWith "after" ⟨1, 1000⟩)
    (usersDefinition "after" ⟨1, 1000⟩) :=
  ⟨by decide +kernel, by decide +kernel, by decide +kernel, by decide +kernel⟩

theorem write_after : (repositoryWith "before" ⟨0, 0⟩).write usersPath
    (.text "description: after") ⟨1, 1000⟩ = .ok (repositoryWith "after" ⟨1, 1000⟩) := by
  decide +kernel

theorem commit_users (node : Node) (version : UInt64) {catalog : Catalog} {session : Session}
    (hflushed : session.pending = [])
    (hreplay : catalog.applyAll session.log = .ok (usersCatalog node version))
    (environment : Builtin.Surroundings) :
    Store.commit ⟨catalog, none⟩ session environment =
      (.ok (usersCatalog node (version + 1)), ⟨usersCatalog node (version + 1), none⟩,
        environment) := by
  obtain ⟨view, pending, log⟩ := session
  obtain rfl : pending = [] := hflushed
  change Store.commitLog _ (log ++ []) environment = _
  rw [List.append_nil]
  simp only [Store.commitLog, Store.replay, hreplay]
  rfl

/-- The node as a run makes it before the edit. -/
def firstNode : Node := usersNode "before" ⟨1, 0⟩ ⟨1, 0⟩ 0

/-- The node as a run makes it after the edit. -/
def secondNode : Node := usersNode "after" ⟨1, 0⟩ ⟨1, 2000⟩ 1

theorem run_catches_edits_users : ∃ (front back : List (Event Nat)) (log changes : List Mutation)
    (last : Upkeep Nat Sources),
    Run allDrivers repositoryPath usersPath
      (idle (surroundings "before" ⟨0, 0⟩ ⟨1, 0⟩ 0) .inMemory)
      ((front ++ .began 1 :: back) ++ [.committed 1 log (.ok (usersCatalog secondNode 2))]) last ∧
    .edited ∈ front ∧
    .stepped 1 .node usersPath
      (.loaded "users" (some ⟨1, 1000⟩) (.node (some "after") none []))
      (.ended (.ok (.node secondNode))) changes ∈ back ∧
    last.store.committed = usersCatalog secondNode 2 ∧
    (usersCatalog secondNode 2).entryOf? .node "users" = some (.node secondNode) ∧
    Definition.sayingOf .node last.environment.files usersPath =
      .ok (Entry.node secondNode).saying := by
  have hnil : Run allDrivers repositoryPath usersPath
      (idle (surroundings "before" ⟨0, 0⟩ ⟨1, 0⟩ 0) .inMemory : Upkeep Nat Sources) [] _ := .nil
  have hmade : (DefinitionTask.node (.compiling (usersDefinition "before" ⟨0, 0⟩) .ready)).step
      allDrivers repositoryPath usersPath 0
      ⟨Store.inMemory.begin, surroundings "before" ⟨0, 0⟩ ⟨1, 0⟩ 0⟩ =
      (.node (.compiling (usersDefinition "before" ⟨0, 0⟩) (.done (.ok firstNode))),
        ⟨⟨usersCatalog firstNode 0, [], [.createNode firstNode]⟩,
          surroundings "before" ⟨0, 0⟩ ⟨1, 1000⟩ 1⟩) := rfl
  have hreplaced : (DefinitionTask.node (.compiling (usersDefinition "after" ⟨1, 1000⟩)
      .ready)).step allDrivers repositoryPath usersPath 0
      ⟨.start (usersCatalog firstNode 1), surroundings "after" ⟨1, 1000⟩ ⟨1, 2000⟩ 1⟩ =
      (.node (.compiling (usersDefinition "after" ⟨1, 1000⟩) (.done (.ok secondNode))),
        ⟨⟨usersCatalog secondNode 1, [], [.dropNode "users", .createNode secondNode]⟩,
          surroundings "after" ⟨1, 1000⟩ ⟨1, 3000⟩ 2⟩) := rfl
  obtain ⟨tasks, htask, hloaded⟩ := hnil.load (k := 0) rfl loadsOnly_before
  obtain ⟨changes, hfirst⟩ := hloaded.finish htask trivial rfl hmade ⟨by decide, rfl, rfl⟩
    (commit_users firstNode 0 rfl rfl _) (.refl _ _)
  have hedited := hfirst.edit write_after
    (show _ = surroundings "after" ⟨1, 1000⟩ ⟨1, 2000⟩ 1 from rfl)
  obtain ⟨tasks, htask, hagain⟩ := hedited.load (k := 1) rfl loadsOnly_after
  obtain ⟨more, hlast⟩ := hagain.finish htask trivial rfl hreplaced ⟨by decide, rfl, rfl⟩
    (commit_users secondNode 1 rfl rfl _) (.refl _ _)
  rw [List.append_assoc _ (_ :: loading (1 : Nat) _), List.cons_append] at hlast
  have hcompiled := List.mem_append_right (loading 1 (usersDefinition "after" ⟨1, 1000⟩))
    (List.mem_singleton_self (Event.stepped 1 .node usersPath
      (.loaded "users" (some ⟨1, 1000⟩) (.node (some "after") none []))
      (.ended (.ok (.node secondNode))) more))
  have hcaught := run_catches_edits loadsOnly_after.nameOf (by rintro entry ⟨⟩) hlast ?_ ?_
    (by simp [loading]) (fun _ event hevent => leaves_loading hevent) hcompiled
  · exact ⟨_, _, _, more, _, hlast, by simp, hcompiled, hcaught⟩
  · rintro event hevent j paths rfl place hplace -
    simp only [loading, List.mem_append, List.mem_cons, List.not_mem_nil, reduceCtorEq,
      or_false, false_or, Event.found.injEq] at hevent
    rcases hevent with ⟨-, -, rfl⟩ | ⟨-, -, rfl⟩
    · exact List.mem_singleton.mp hplace
    · exact List.mem_singleton.mp hplace
  · exact lastEditSeen_append (along_loading _)

/-- The node as the first run makes it from what it read before the edit. -/
def staleNode : Node := usersNode "before" ⟨1, 2000⟩ ⟨1, 2000⟩ 0

/-- A run reads the definition, and then, before the run makes the node of it, the definition is
edited. The next run finds a node that is newer than its definition, and it keeps it. -/
theorem exists_missed_edit : ∃ (front back : List (Event Nat)) (log changes : List Mutation)
    (last : Upkeep Nat Sources),
    Run allDrivers repositoryPath usersPath
      (idle (surroundings "before" ⟨0, 0⟩ ⟨1, 1000⟩ 0) .inMemory)
      ((front ++ .began 1 :: back) ++ [.committed 1 log (.ok (usersCatalog staleNode 2))]) last ∧
    .edited ∉ back ∧ (∀ event ∈ back, event.Leaves .node "users") ∧
    .stepped 1 .node usersPath
      (.loaded "users" (some ⟨1, 1000⟩) (.node (some "after") none []))
      (.ended (.ok (.node staleNode))) changes ∈ back ∧
    last.store.committed = usersCatalog staleNode 2 ∧
    (usersCatalog staleNode 2).entryOf? .node "users" = some (.node staleNode) ∧
    staleNode.description = some "before" ∧
    Definition.readConfig Yaml.readNodeConfig last.environment.files usersPath =
      .ok ⟨some "after", none, []⟩ := by
  have hnil : Run allDrivers repositoryPath usersPath
      (idle (surroundings "before" ⟨0, 0⟩ ⟨1, 1000⟩ 0) .inMemory : Upkeep Nat Sources) [] _ := .nil
  have hmade : (DefinitionTask.node (.compiling (usersDefinition "before" ⟨0, 0⟩) .ready)).step
      allDrivers repositoryPath usersPath 0
      ⟨Store.inMemory.begin, surroundings "after" ⟨1, 1000⟩ ⟨1, 2000⟩ 0⟩ =
      (.node (.compiling (usersDefinition "before" ⟨0, 0⟩) (.done (.ok staleNode))),
        ⟨⟨usersCatalog staleNode 0, [], [.createNode staleNode]⟩,
          surroundings "after" ⟨1, 1000⟩ ⟨1, 3000⟩ 1⟩) := rfl
  have hkept : (DefinitionTask.node (.compiling (usersDefinition "after" ⟨1, 1000⟩) .ready)).step
      allDrivers repositoryPath usersPath 0
      ⟨.start (usersCatalog staleNode 1), surroundings "after" ⟨1, 1000⟩ ⟨1, 3000⟩ 1⟩ =
      (.node (.compiling (usersDefinition "after" ⟨1, 1000⟩) (.done (.ok staleNode))),
        ⟨.start (usersCatalog staleNode 1), surroundings "after" ⟨1, 1000⟩ ⟨1, 3000⟩ 1⟩) := rfl
  obtain ⟨tasks, htask, hloaded⟩ := hnil.load (k := 0) rfl loadsOnly_before
  have hedited := hloaded.edit write_after
    (show _ = surroundings "after" ⟨1, 1000⟩ ⟨1, 2000⟩ 0 from rfl)
  obtain ⟨changes, hfirst⟩ := hedited.finish htask trivial rfl hmade ⟨by decide, rfl, rfl⟩
    (commit_users staleNode 0 rfl rfl _) (.refl _ _)
  obtain ⟨tasks, htask, hagain⟩ := hfirst.load (k := 1) rfl loadsOnly_after
  obtain ⟨more, hlast⟩ := hagain.finish htask trivial rfl hkept ⟨by decide, rfl, rfl⟩
    (commit_users staleNode 1 rfl rfl _) (.refl _ _)
  rw [List.append_assoc _ (_ :: loading (1 : Nat) _), List.cons_append] at hlast
  refine ⟨_, _, _, more, _, hlast, by simp [loading], fun event hevent => leaves_loading hevent,
    ?_, ?_, rfl, rfl, ?_⟩
  · exact List.mem_append_right _ (List.mem_singleton_self _)
  · rfl
  · exact loadsOnly_after.readConfig

end Upkeep

end MetricCatalog
