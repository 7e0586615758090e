/-
# Changes of different entries

A change looks at one entry of a catalog and changes this entry only. So logs
that are about different entries do not meet: each of them is made or fails as
if the other one were not there, and it does not matter which of them is made
first. Sessions that write to different entries can commit in either order.
-/

import MetricCatalog.Proofs.Catalog.Replay
import MetricCatalog.Proofs.KeyMap

namespace MetricCatalog

/-- Whether something was made, and why not. -/
def verdictOf {ε α : Type} (result : Except ε α) : Except ε Unit := result.map fun _ => ()

theorem verdictOf_eq_error {ε α : Type} {result : Except ε α} {error : ε} :
    verdictOf result = .error error ↔ result = .error error := by
  cases result <;> simp [verdictOf, Except.map]

theorem verdictOf_map {ε α β : Type} (result : Except ε α) (f : α → β) :
    verdictOf (result.map f) = verdictOf result := by
  cases result <;> rfl

theorem verdictOf_mapError {ε ε' α : Type} (result : Except ε α) (f : ε → ε') :
    verdictOf (result.mapError f) = (verdictOf result).mapError f := by
  cases result <;> rfl

/-- An entry of a catalog, whether it is there or not. -/
inductive EntryKey
  | database (name : String)
  | node (name : String)
  | query (id : Uuid)
  deriving DecidableEq

namespace EntryKey

/-- What there may be at an entry. -/
abbrev Content : EntryKey → Type
  | database _ => Database
  | node _ => Node
  | query _ => Query

end EntryKey

namespace Catalog

/-- What there is at an entry. -/
def at? (catalog : Catalog) : (key : EntryKey) → Option key.Content
  | .database name => catalog.databases.find? name
  | .node name => catalog.nodes.find? name
  | .query id => catalog.queries.find? id

/-- The catalog with another content of an entry. -/
def put (catalog : Catalog) : (key : EntryKey) → Option key.Content → Catalog
  | .database name, content => { catalog with databases := catalog.databases.change name content }
  | .node name, content => { catalog with nodes := catalog.nodes.change name content }
  | .query id, content => { catalog with queries := catalog.queries.change id content }

theorem at?_put_of_ne (catalog : Catalog) {key other : EntryKey} (hne : other ≠ key)
    (content : Option key.Content) : (catalog.put key content).at? other = catalog.at? other := by
  cases key with
  | database name =>
      cases other with
      | database _ => exact KeyMap.find?_change_of_ne _ (fun heq => hne (congrArg _ heq)) _
      | node _ | query _ => rfl
  | node name =>
      cases other with
      | node _ => exact KeyMap.find?_change_of_ne _ (fun heq => hne (congrArg _ heq)) _
      | database _ | query _ => rfl
  | query id =>
      cases other with
      | query _ => exact KeyMap.find?_change_of_ne _ (fun heq => hne (congrArg _ heq)) _
      | database _ | node _ => rfl

theorem put_comm (catalog : Catalog) {first second : EntryKey} (hne : first ≠ second)
    (content : Option first.Content) (other : Option second.Content) :
    (catalog.put first content).put second other =
      (catalog.put second other).put first content := by
  cases first with
  | database name =>
      cases second with
      | database _ =>
          simp only [put]
          rw [KeyMap.change_comm _ (fun heq => hne (congrArg _ heq))]
      | node _ | query _ => rfl
  | node name =>
      cases second with
      | node _ =>
          simp only [put]
          rw [KeyMap.change_comm _ (fun heq => hne (congrArg _ heq))]
      | database _ | query _ => rfl
  | query id =>
      cases second with
      | query _ =>
          simp only [put]
          rw [KeyMap.change_comm _ (fun heq => hne (congrArg _ heq))]
      | database _ | node _ => rfl

end Catalog

/-! ## Single changes -/

namespace Mutation

/-- The entry that a change is about. -/
def key : Mutation → EntryKey
  | createDatabase database => .database database.name
  | dropDatabase name => .database name
  | createNode node => .node node.name
  | dropNode name => .node name
  | putQuery query => .query query.id

/-- What a change makes of its entry. -/
def change : (mutation : Mutation) → Option mutation.key.Content →
    Except CatalogError (Option mutation.key.Content)
  | createDatabase database, none => .ok (some database)
  | createDatabase database, some _ => .error (.duplicateName .database database.name)
  | dropDatabase _, some _ => .ok none
  | dropDatabase name, none => .error (.missingEntry .database name)
  | createNode node, none => .ok (some node)
  | createNode node, some _ => .error (.duplicateName .node node.name)
  | dropNode _, some _ => .ok none
  | dropNode name, none => .error (.missingEntry .node name)
  | putQuery query, _ => .ok (some query)

/-- A change is made by changing its entry, and it fails if the entry cannot be changed. -/
theorem apply_eq (mutation : Mutation) (catalog : Catalog) :
    mutation.apply catalog =
      (mutation.change (catalog.at? mutation.key)).map (catalog.put mutation.key) := by
  cases mutation with
  | createDatabase database =>
      cases hfind : catalog.databases.find? database.name <;>
        simp [apply, change, key, Catalog.at?, Catalog.put, KeyMap.contains, hfind, Except.map,
          KeyMap.change]
  | dropDatabase name =>
      cases hfind : catalog.databases.find? name <;>
        simp [apply, change, key, Catalog.at?, Catalog.put, KeyMap.contains, hfind, Except.map,
          KeyMap.change]
  | createNode node =>
      cases hfind : catalog.nodes.find? node.name <;>
        simp [apply, change, key, Catalog.at?, Catalog.put, KeyMap.contains, hfind, Except.map,
          KeyMap.change]
  | dropNode name =>
      cases hfind : catalog.nodes.find? name <;>
        simp [apply, change, key, Catalog.at?, Catalog.put, KeyMap.contains, hfind, Except.map,
          KeyMap.change]
  | putQuery query => rfl

variable {catalog next changed : Catalog} {mutation other : Mutation}

theorem apply_eq_ok : mutation.apply catalog = .ok next ↔
    ∃ content, mutation.change (catalog.at? mutation.key) = .ok content ∧
      catalog.put mutation.key content = next := by
  rw [apply_eq]
  cases mutation.change (catalog.at? mutation.key) with
  | error error => simp [Except.map]
  | ok content => simp [Except.map]

/-- A change that has been made has left all other entries alone. -/
theorem at?_apply_of_ne (happly : mutation.apply catalog = .ok next) {key : EntryKey}
    (hne : key ≠ mutation.key) : next.at? key = catalog.at? key := by
  obtain ⟨content, -, rfl⟩ := apply_eq_ok.mp happly
  exact Catalog.at?_put_of_ne catalog hne content

/-- A change can be made wherever its entry is the same. -/
theorem exists_apply (happly : mutation.apply catalog = .ok next)
    (hsame : changed.at? mutation.key = catalog.at? mutation.key) :
    ∃ last, mutation.apply changed = .ok last := by
  obtain ⟨content, hchange, -⟩ := apply_eq_ok.mp happly
  exact ⟨_, apply_eq_ok.mpr ⟨content, hsame ▸ hchange, rfl⟩⟩

/-- After a change, a change of another entry comes to what it came to before, with the first change
made on top. -/
theorem apply_of_apply (happly : mutation.apply catalog = .ok next)
    (hne : mutation.key ≠ other.key) :
    other.apply next = (other.apply catalog).bind mutation.apply := by
  obtain ⟨content, hchange, rfl⟩ := apply_eq_ok.mp happly
  rw [apply_eq, apply_eq other catalog, Catalog.at?_put_of_ne catalog hne.symm]
  cases other.change (catalog.at? other.key) with
  | error error => rfl
  | ok more =>
      show Except.ok ((catalog.put mutation.key content).put other.key more) =
        mutation.apply (catalog.put other.key more)
      rw [apply_eq, Catalog.at?_put_of_ne catalog hne, hchange, Catalog.put_comm _ hne]
      rfl

end Mutation

/-! ## Logs -/

/-- No entry is changed by both logs. -/
def Independent (first second : List Mutation) : Prop :=
  ∀ mutation ∈ first, ∀ other ∈ second, mutation.key ≠ other.key

instance (first second : List Mutation) : Decidable (Independent first second) :=
  inferInstanceAs (Decidable (∀ mutation ∈ first, ∀ other ∈ second, mutation.key ≠ other.key))

theorem Independent.symm {first second : List Mutation} (hindependent : Independent first second) :
    Independent second first :=
  fun other hother mutation hmutation => (hindependent mutation hmutation other hother).symm

namespace Catalog

variable {catalog next : Catalog} {mutation : Mutation} {first second log : List Mutation}

/-- By induction on the log: a change of another entry can be moved behind it. -/
theorem applyAll_of_apply (happly : mutation.apply catalog = .ok next)
    (hothers : ∀ other ∈ log, mutation.key ≠ other.key) :
    next.applyAll log = (catalog.applyAll log).bind mutation.apply := by
  induction log generalizing catalog next with
  | nil => exact happly.symm
  | cons other rest ih =>
      obtain ⟨hother, hrest⟩ := List.forall_mem_cons.mp hothers
      rw [applyAll_cons, applyAll_cons, Mutation.apply_of_apply happly hother]
      cases hmade : other.apply catalog with
      | error error => rfl
      | ok changed =>
          obtain ⟨last, hlast⟩ :=
            Mutation.exists_apply happly (Mutation.at?_apply_of_ne hmade hother)
          show (mutation.apply changed).bind (·.applyAll rest) = _
          rw [hlast]
          exact ih hlast hrest

/-- By induction on the first log: each of its changes can be moved behind the second one. So after
a log another one comes to what it came to before, with the first log made on top. -/
theorem applyAll_of_applyAll (hindependent : Independent first second)
    (happly : catalog.applyAll first = .ok next) :
    next.applyAll second = (catalog.applyAll second).bind (·.applyAll first) := by
  induction first generalizing catalog with
  | nil =>
      cases happly
      cases next.applyAll second <;> rfl
  | cons mutation rest ih =>
      obtain ⟨hmutation, hrest⟩ := List.forall_mem_cons.mp hindependent
      obtain ⟨changed, hmade, hlater⟩ := applyAll_cons_eq_ok.mp happly
      rw [ih hrest hlater, applyAll_of_apply hmade hmutation]
      cases catalog.applyAll second <;> rfl

/-- By induction on the log: an entry that it is not about is left alone. -/
theorem at?_applyAll_of_ne (happly : catalog.applyAll log = .ok next) {key : EntryKey}
    (hothers : ∀ other ∈ log, key ≠ other.key) : next.at? key = catalog.at? key := by
  induction log generalizing catalog with
  | nil =>
      cases happly
      rfl
  | cons mutation rest ih =>
      obtain ⟨hmutation, hrest⟩ := List.forall_mem_cons.mp hothers
      obtain ⟨changed, hmade, hlater⟩ := applyAll_cons_eq_ok.mp happly
      rw [ih hlater hrest, Mutation.at?_apply_of_ne hmade hmutation]

/-- By induction on the first log: two logs that can be made can be made one after the other. -/
theorem exists_applyAll_of_applyAll (hindependent : Independent first second)
    (hfirst : catalog.applyAll first = .ok next) {other : Catalog}
    (hsecond : catalog.applyAll second = .ok other) : ∃ last, next.applyAll second = .ok last := by
  induction first generalizing catalog other with
  | nil =>
      cases hfirst
      exact ⟨other, hsecond⟩
  | cons mutation rest ih =>
      obtain ⟨hmutation, hrest⟩ := List.forall_mem_cons.mp hindependent
      obtain ⟨changed, hmade, hlater⟩ := applyAll_cons_eq_ok.mp hfirst
      obtain ⟨last, hlast⟩ := Mutation.exists_apply hmade (at?_applyAll_of_ne hsecond hmutation)
      have hmoved : changed.applyAll second = .ok last := by
        rw [applyAll_of_apply hmade hmutation, hsecond]
        exact hlast
      exact ih hrest hlater hmoved

/-- Of a log that has been made another one does not notice anything: it fails as it did before, or
it can be made as it could before. -/
theorem verdict_of_applyAll (hindependent : Independent first second)
    (hfirst : catalog.applyAll first = .ok next) :
    verdictOf (next.applyAll second) = verdictOf (catalog.applyAll second) := by
  cases hsecond : catalog.applyAll second with
  | error error =>
      rw [applyAll_of_applyAll hindependent hfirst, hsecond]
      rfl
  | ok other =>
      obtain ⟨last, hlast⟩ := exists_applyAll_of_applyAll hindependent hfirst hsecond
      rw [hlast]
      rfl

theorem applyAll_comm (hindependent : Independent first second) (catalog : Catalog) :
    ((catalog.applyAll first).bind (·.applyAll second)).toOption =
      ((catalog.applyAll second).bind (·.applyAll first)).toOption := by
  cases hfirst : catalog.applyAll first with
  | ok next =>
      show (next.applyAll second).toOption = _
      rw [applyAll_of_applyAll hindependent hfirst]
  | error error =>
      cases hsecond : catalog.applyAll second with
      | error other => rfl
      | ok other =>
          show none = (other.applyAll first).toOption
          rw [applyAll_of_applyAll hindependent.symm hsecond, hfirst]
          rfl

end Catalog

/-! ## Commits -/

/-- The changes that a commit of a session makes, if they can be flushed. -/
def Session.writes (session : Session) : List Mutation := session.log ++ session.pending

namespace Store

variable {σ : Type}

/-- What a store and a session make of a commit for which there is a place to write to. -/
def outcome (store : Store) (session : Session) : Except CatalogError Catalog :=
  session.flush.1.bind fun _ => store.replay session.writes

/-- The store after such a commit. -/
def after (store : Store) (session : Session) : Store :=
  { store with committed := (store.outcome session).toOption.getD store.committed }

/-- A commit has not failed for want of a place to write to. -/
def IsKept (result : Except StoreError Catalog) : Prop := ∀ error, result ≠ .error (.storage error)

variable {store : Store} {session : Session} {log : List Mutation} {environment : Environment σ}

theorem commitLog_of_isKept (hkept : IsKept (store.commitLog log environment).1) :
    (store.commitLog log environment).1 = (store.replay log).mapError .conflict ∧
      (store.commitLog log environment).2.1 =
        { store with committed := (store.replay log).toOption.getD store.committed } := by
  cases hreplay : store.replay log with
  | error error => simp [commitLog, hreplay, Except.mapError, Except.toOption]
  | ok catalog =>
      rcases (commitLog_publishes hreplay environment).1 with
        ⟨hresult, hnext⟩ | ⟨storage, error, -, hresult, -⟩
      · exact ⟨hresult, hnext⟩
      · exact absurd hresult (hkept error)

theorem commit_of_isKept (hkept : IsKept (store.commit session environment).1) :
    (store.commit session environment).1 = (store.outcome session).mapError .conflict ∧
      (store.commit session environment).2.1 = store.after session := by
  rw [after, outcome]
  rcases session.flush_cases with ⟨view, -, hflush⟩ | ⟨error, -, hflush⟩
  · have hok : session.flush.1 = .ok () := by rw [hflush]
    have hlog : session.flush.2.log = session.writes := by
      rw [hflush]
      rfl
    rw [commit_of_flush_ok hok, hlog] at hkept ⊢
    rw [hok]
    exact commitLog_of_isKept hkept
  · have herror : session.flush.1 = .error error := by rw [hflush]
    rw [commit_of_flush_error herror, herror]
    exact ⟨rfl, rfl⟩

theorem replay_eq (store : Store) (log : List Mutation) :
    store.replay log = (store.committed.applyAll log).map
      (·.withVersion (store.committed.version + 1)) := by
  rw [replay]
  cases happly : store.committed.applyAll log with
  | error error => rfl
  | ok next =>
      rw [← Catalog.version_applyAll happly]
      rfl

theorem outcome_eq_ok {made : Catalog} : store.outcome session = .ok made ↔
    session.flush.1 = .ok () ∧ ∃ next, store.committed.applyAll session.writes = .ok next ∧
      next.withVersion (store.committed.version + 1) = made := by
  rw [outcome, replay_eq]
  cases session.flush.1 with
  | error error => simp [Except.bind]
  | ok =>
      cases store.committed.applyAll session.writes <;> simp [Except.bind, Except.map]

theorem after_of_ok {made : Catalog} (houtcome : store.outcome session = .ok made) :
    store.after session = { store with committed := made } := by
  rw [after, houtcome]
  rfl

theorem after_of_error {error : CatalogError} (houtcome : store.outcome session = .error error) :
    store.after session = store := by
  rw [after, houtcome]
  rfl

variable {other : Session}

/-- Of a session that has committed, one with other writes does not notice anything. -/
theorem verdictOf_outcome_after (hindependent : Independent other.writes session.writes) :
    verdictOf ((store.after other).outcome session) = verdictOf (store.outcome session) := by
  cases hother : store.outcome other with
  | error error => rw [after_of_error hother]
  | ok made =>
      obtain ⟨-, next, hnext, rfl⟩ := outcome_eq_ok.mp hother
      have hsame := Catalog.verdict_of_applyAll hindependent hnext
      rw [after_of_ok hother, outcome, outcome]
      cases session.flush.1 with
      | error error => rfl
      | ok =>
          show verdictOf (replay _ _) = verdictOf (replay _ _)
          rw [replay_eq, replay_eq, Catalog.applyAll_withVersion]
          simpa only [verdictOf_map] using hsame

theorem outcome_after_eq_error (hindependent : Independent other.writes session.writes)
    {error : CatalogError} (houtcome : store.outcome session = .error error) :
    (store.after other).outcome session = .error error := by
  rw [← verdictOf_eq_error, verdictOf_outcome_after hindependent, verdictOf_eq_error]
  exact houtcome

/-- Two sessions that can both commit come to the same catalog under the same version. -/
theorem outcome_after_comm (hindependent : Independent session.writes other.writes)
    {made more : Catalog} (hmade : store.outcome session = .ok made)
    (hmore : store.outcome other = .ok more) :
    ∃ last, (store.after session).outcome other = .ok last ∧
      (store.after other).outcome session = .ok last := by
  rw [after_of_ok hmade, after_of_ok hmore]
  obtain ⟨hflush, next, hnext, rfl⟩ := outcome_eq_ok.mp hmade
  obtain ⟨hothers, changed, hchanged, rfl⟩ := outcome_eq_ok.mp hmore
  obtain ⟨last, hlast⟩ := Catalog.exists_applyAll_of_applyAll hindependent hnext hchanged
  have hback : changed.applyAll session.writes = .ok last := by
    rw [Catalog.applyAll_of_applyAll hindependent.symm hchanged, hnext]
    exact hlast
  refine ⟨last.withVersion (store.committed.version + 1 + 1), outcome_eq_ok.mpr ⟨hothers, ?_⟩,
    outcome_eq_ok.mpr ⟨hflush, ?_⟩⟩
  · refine ⟨last.withVersion (store.committed.version + 1), ?_, rfl⟩
    rw [Catalog.applyAll_withVersion, hlast]
    rfl
  · refine ⟨last.withVersion (store.committed.version + 1), ?_, rfl⟩
    rw [Catalog.applyAll_withVersion, hback]
    rfl

theorem after_comm (hindependent : Independent session.writes other.writes) :
    (store.after session).after other = (store.after other).after session := by
  cases hmade : store.outcome session with
  | error error =>
      rw [after_of_error hmade, after_of_error (outcome_after_eq_error hindependent.symm hmade)]
  | ok made =>
      cases hmore : store.outcome other with
      | error error =>
          rw [after_of_error hmore, after_of_error (outcome_after_eq_error hindependent hmore)]
      | ok more =>
          obtain ⟨last, hlast, hback⟩ := outcome_after_comm hindependent hmade hmore
          rw [after_of_ok hlast, after_of_ok hback, after_of_ok hmade, after_of_ok hmore]

/-- Two sessions commit one after the other, and neither fails for want of a place to write to. -/
def CommitsBoth (store : Store) (session other : Session) (result later : Except StoreError Catalog)
    (last : Store) : Prop :=
  ∃ (σ : Type) (environment after : Environment σ) (next : Store),
    (store.commit session environment).1 = result ∧ IsKept result ∧
    (store.commit session environment).2.1 = next ∧
    (next.commit other after).1 = later ∧ IsKept later ∧ (next.commit other after).2.1 = last

theorem CommitsBoth.eq {result later : Except StoreError Catalog} {last : Store}
    (hboth : store.CommitsBoth session other result later last) :
    result = (store.outcome session).mapError .conflict ∧
      later = ((store.after session).outcome other).mapError .conflict ∧
      last = (store.after session).after other := by
  obtain ⟨σ, environment, after, next, rfl, hkept, rfl, rfl, hlater, rfl⟩ := hboth
  obtain ⟨hresult, hnext⟩ := commit_of_isKept hkept
  rw [hnext] at hlater ⊢
  exact ⟨hresult, commit_of_isKept hlater⟩

/-- A store that is only in memory needs no place to write to. -/
theorem isKept_of_inMemory (hmemory : store.storage = none) :
    IsKept (store.commit session environment).1 := by
  intro error hresult
  rcases session.flush_cases with ⟨view, -, hflush⟩ | ⟨found, -, hflush⟩
  · rw [commit_of_flush_ok (by rw [hflush]), commitLog] at hresult
    cases hreplay : store.replay session.flush.2.log with
    | error found =>
        rw [hreplay] at hresult
        cases hresult
    | ok catalog =>
        rw [hreplay, hmemory] at hresult
        cases hresult
  · rw [commit_of_flush_error (by rw [hflush])] at hresult
    cases hresult

theorem exists_commitsBoth (hmemory : store.storage = none) (session other : Session) :
    ∃ result later, store.CommitsBoth session other result later
      ((store.after session).after other) := by
  let environment : Environment Unit := ⟨⟨.empty, []⟩, ⟨0, 0⟩, 0, ()⟩
  have hkept : IsKept (store.commit session environment).1 := isKept_of_inMemory hmemory
  have hlater : IsKept ((store.after session).commit other environment).1 :=
    isKept_of_inMemory hmemory
  exact ⟨_, _, Unit, environment, environment, store.after session, rfl, hkept,
    (commit_of_isKept hkept).2, rfl, hlater, (commit_of_isKept hlater).2⟩

/-- Two logs that are about different entries come to the same catalog in either order, or they
cannot be made in either. So two sessions with different writes can commit in either order: each of
them succeeds or fails with the same complaint in both, and the store ends up the same, databases,
nodes, queries and version. -/
theorem commits_commute {first second : List Mutation} (hindependent : Independent first second) :
    (∀ catalog : Catalog,
      ((catalog.applyAll first).bind (·.applyAll second)).toOption =
        ((catalog.applyAll second).bind (·.applyAll first)).toOption) ∧
    ∀ (store : Store) (session other : Session), session.writes = first → other.writes = second →
      ∀ result later last, store.CommitsBoth session other result later last →
      ∀ result' later' last', store.CommitsBoth other session result' later' last' →
        last = last' ∧ verdictOf result = verdictOf later' ∧
          verdictOf later = verdictOf result' := by
  refine ⟨Catalog.applyAll_comm hindependent, ?_⟩
  rintro store session other rfl rfl result later last hboth result' later' last' hboth'
  obtain ⟨rfl, rfl, rfl⟩ := hboth.eq
  obtain ⟨rfl, rfl, rfl⟩ := hboth'.eq
  refine ⟨after_comm hindependent, ?_, ?_⟩
  · rw [verdictOf_mapError, verdictOf_mapError, verdictOf_outcome_after hindependent.symm]
  · rw [verdictOf_mapError, verdictOf_mapError, verdictOf_outcome_after hindependent]

/-- A store in memory that has a warehouse. -/
def stocked : Store where
  committed := { Catalog.empty with databases := .ofList [("warehouse", World.warehouse)] }
  storage := none

/-- The warehouse is dropped and made again. -/
def rebuild : List Mutation := [.dropDatabase "warehouse", .createDatabase World.warehouse]

/-- A lake is made, dropped and made again. -/
def digLake : List Mutation :=
  let lake : Database := ⟨.ofNat 2, "lake", "sqlite://", none, ⟨0, 0⟩, ⟨0, 0⟩⟩
  [.createDatabase lake, .dropDatabase "lake", .createDatabase lake]

theorem commits_commute_lakeAndWarehouse :
    Independent rebuild digLake ∧
    (stocked.committed.applyAll (rebuild ++ digLake)).toOption.isSome = true ∧
    ∃ result later last result' later' last',
      stocked.CommitsBoth ⟨stocked.committed, rebuild, []⟩ ⟨stocked.committed, digLake, []⟩
        result later last ∧
      stocked.CommitsBoth ⟨stocked.committed, digLake, []⟩ ⟨stocked.committed, rebuild, []⟩
        result' later' last' ∧
      last = last' ∧ last.committed.version = 2 ∧
      last.committed.databases.keys = ["lake", "warehouse"] := by
  have hindependent : Independent rebuild digLake := by decide
  have hmemory : stocked.storage = none := rfl
  obtain ⟨result, later, hboth⟩ := exists_commitsBoth hmemory
    ⟨stocked.committed, rebuild, []⟩ ⟨stocked.committed, digLake, []⟩
  obtain ⟨result', later', hboth'⟩ := exists_commitsBoth hmemory
    ⟨stocked.committed, digLake, []⟩ ⟨stocked.committed, rebuild, []⟩
  obtain ⟨-, hcommits⟩ := commits_commute hindependent
  obtain ⟨hlast, -, -⟩ := hcommits stocked _ _ rfl rfl _ _ _ hboth _ _ _ hboth'
  exact ⟨hindependent, by decide, _, _, _, _, _, _, hboth, hboth', hlast, by decide, by decide⟩

end Store

end MetricCatalog
