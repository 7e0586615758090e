/-
# What probes come to

The probe of a representation fails, or reads columns over a connection. It is
not said which of the two happens, nor when: a driver may answer one way today
and another way tomorrow. Each answer a task goes by tells of some such outcome,
and of all outcomes only the columns that were read matter.
-/

import MetricCatalog.Proofs.Compile.Harmony
import MetricCatalog.Proofs.Compile.Probing

namespace MetricCatalog

variable {ω γ : Type}

namespace Reading

/-! ## Outcomes -/

/-- What the probe of a representation comes to. -/
inductive Outcome
  | failed (cause : SourceError)
  /-- The table has been read. The driver knows some native types. -/
  | read (columnType : String → Option ColumnType) (native : List NativeColumn)

/-- The columns that are observed. A native type that the driver does not know counts as text. -/
def Outcome.columns : Outcome → List Column
  | failed _ => []
  | read columnType native =>
      native.map fun column => ⟨column.name, (columnType column.type).getD .str⟩

/-- The answer that tells of an outcome. -/
def Outcome.answer (database : Database) (representation : Representation) :
    Outcome → Except CompileError (List Column)
  | failed cause =>
      let table := qualifiedName representation.schema representation.table
      .error (.probeFailure database.name table cause)
  | read columnType native => .ok (columns (read columnType native))

/-- The outcome of a probe, whenever it is started and ended. -/
inductive Finds (drivers : Drivers ω γ) (database : Database)
    (representation : Representation) : Outcome → Prop
  | refused {state : ω} {cause : SourceError}
      (hconnect : (drivers.connect database.uri state).1 = .error cause) :
      Finds drivers database representation (.failed cause)
  | failed {state later : ω} {connection : γ} {cause : SourceError}
      (hconnect : (drivers.connect database.uri state).1 = .ok connection)
      (hfinish : ((drivers.introspect connection representation.table representation.schema
        (drivers.connect database.uri state).2).1.finish later).1 = .error cause) :
      Finds drivers database representation (.failed cause)
  | read {state later : ω} {connection : γ} {native : List NativeColumn}
      (hconnect : (drivers.connect database.uri state).1 = .ok connection)
      (hfinish : ((drivers.introspect connection representation.table representation.schema
        (drivers.connect database.uri state).2).1.finish later).1 = .ok native) :
      Finds drivers database representation (.read (drivers.columnType connection) native)

/-! ## Answers -/

variable {drivers : Drivers ω γ} {database : Database} {representation : Representation}

/-- The answer to a probe tells of an outcome. -/
def Tells (drivers : Drivers ω γ) (database : Database) (representation : Representation)
    (answer : Except CompileError (List Column)) : Prop :=
  ∃ outcome, Finds drivers database representation outcome ∧
    answer = outcome.answer database representation

/-- A probe has an answer, or will have it. -/
inductive Comes (drivers : Drivers ω γ) (database : Database)
    (representation : Representation) : Reading ω → Prop
  | settled {answer : Except CompileError (List Column)}
      (htells : Tells drivers database representation answer) :
      Comes drivers database representation (.settled answer)
  | underway {due : Nat} {finish : ω → Except CompileError (List Column) × ω}
      (htells : ∀ state, Tells drivers database representation (finish state).1) :
      Comes drivers database representation (.underway due finish)

/-- Over a connection, the answer tells of an outcome whenever the probe is ended. -/
theorem tells_of_connect (representation : Representation) {state : ω} {connection : γ}
    (hconnect : (drivers.connect database.uri state).1 = .ok connection) (later : ω) :
    let table := qualifiedName representation.schema representation.table
    let probe := (drivers.introspect connection representation.table representation.schema
      (drivers.connect database.uri state).2).1
    Tells drivers database representation
      (((probe.finish later).1.mapError (.probeFailure database.name table)).map
        (columnsOf (drivers.columnType connection))) := by
  intro table probe
  cases hfinish : (probe.finish later).1 with
  | error cause => exact ⟨_, .failed hconnect hfinish, rfl⟩
  | ok native => exact ⟨_, .read hconnect hfinish, rfl⟩

theorem start_comes (drivers : Drivers ω γ) (now : Nat) (database : Database)
    (representation : Representation) (state : ω) :
    (start drivers now database representation state).1.Comes drivers database
      representation := by
  unfold start
  cases hconnect : drivers.connect database.uri state with
  | mk connected after =>
      cases connected with
      | error cause => exact .settled ⟨_, .refused (congrArg Prod.fst hconnect), rfl⟩
      | ok connection =>
          have htells := tells_of_connect representation (congrArg Prod.fst hconnect)
          rw [hconnect] at htells
          simp only
          split
          · exact .settled (htells _)
          · exact .underway htells

theorem Comes.wake {reading : Reading ω}
    (hcomes : reading.Comes drivers database representation) (now : Nat) (state : ω) :
    (reading.wake now state).1.Comes drivers database representation := by
  cases hcomes with
  | settled htells => exact .settled htells
  | underway htells =>
      simp only [Reading.wake]
      split
      · exact .settled (htells state)
      · exact .underway htells

/-- The probes of several representations, each of them in a known database. -/
def ComeAll (drivers : Drivers ω γ) (databases : KeyMap String Database) :
    List Representation → List (Reading ω) → Prop :=
  List.Forall₂ fun representation reading =>
    ∃ database, databases.find? representation.database = some database ∧
      reading.Comes drivers database representation

/-- By induction on the representations. -/
theorem startAll_comeAll (drivers : Drivers ω γ) (now : Nat) {databases : KeyMap String Database}
    {representations : List Representation}
    (hknown : ∀ representation ∈ representations,
      databases.contains representation.database = true) (state : ω) :
    ComeAll drivers databases representations
      (startAll drivers now databases representations state).1 := by
  induction representations generalizing state with
  | nil => exact .nil
  | cons representation rest ih =>
      obtain ⟨hfirst, hrest⟩ := List.forall_mem_cons.mp hknown
      obtain ⟨database, hdatabase⟩ := Option.isSome_iff_exists.mp hfirst
      simp only [startAll, hdatabase]
      exact .cons ⟨database, hdatabase, start_comes drivers now database representation state⟩
        (ih hrest _)

/-- By induction on the readings. -/
theorem ComeAll.wakeAll {databases : KeyMap String Database}
    {representations : List Representation} {readings : List (Reading ω)}
    (hcome : ComeAll drivers databases representations readings) (now : Nat) (state : ω) :
    ComeAll drivers databases representations (Reading.wakeAll now readings state).1 := by
  induction hcome generalizing state with
  | nil => exact .nil
  | cons hfirst _ ih =>
      obtain ⟨database, hdatabase, hcomes⟩ := hfirst
      exact .cons ⟨database, hdatabase, hcomes.wake now state⟩ (ih _)

/-- The answers to probes of representations in known databases. -/
def Answers (drivers : Drivers ω γ) (databases : KeyMap String Database) :
    List (Representation × Outcome) → List (Except CompileError (List Column)) → Prop :=
  List.Forall₂ fun probe answer =>
    ∃ database, databases.find? probe.1.database = some database ∧
      Finds drivers database probe.1 probe.2 ∧ answer = probe.2.answer database probe.1

/-- When all answers are there, each of them tells of a probe. -/
theorem ComeAll.exists_probes {databases : KeyMap String Database}
    {representations : List Representation} {readings : List (Reading ω)}
    (hcome : ComeAll drivers databases representations readings)
    {answers : List (Except CompileError (List Column))}
    (hanswers : readings.mapM answer? = some answers) :
    ∃ probes, probes.map (·.1) = representations ∧ Answers drivers databases probes answers := by
  induction hcome generalizing answers with
  | nil =>
      cases hanswers
      exact ⟨[], rfl, .nil⟩
  | @cons representation reading representations readings hfirst _ ih =>
      rw [List.mapM_cons] at hanswers
      obtain ⟨database, hdatabase, hcomes⟩ := hfirst
      cases hcomes with
      | underway => cases hanswers
      | settled htells =>
          obtain ⟨outcome, hfinds, rfl⟩ := htells
          cases hrest : readings.mapM answer? with
          | none =>
              rw [hrest] at hanswers
              cases hanswers
          | some rest =>
              rw [hrest] at hanswers
              cases hanswers
              obtain ⟨probes, hprobes, hall⟩ := ih hrest
              refine ⟨(representation, outcome) :: probes, ?_, ?_⟩
              · rw [List.map_cons, hprobes]
              · exact .cons ⟨database, hdatabase, hfinds, rfl⟩ hall

/-- All that is observed by probes, in order. -/
def observed (outcomes : List Outcome) : List Column := outcomes.flatMap Outcome.columns

theorem Answers.observations_eq {databases : KeyMap String Database}
    {probes : List (Representation × Outcome)}
    {answers : List (Except CompileError (List Column))}
    (hanswers : Answers drivers databases probes answers) :
    Column.observations answers = observed (probes.map (·.2)) := by
  induction hanswers with
  | nil => rfl
  | @cons probe answer probes answers hfirst _ ih =>
      obtain ⟨database, -, -, rfl⟩ := hfirst
      obtain ⟨representation, outcome⟩ := probe
      simp only [Column.observations, observed, List.map_cons, List.flatMap_cons] at ih ⊢
      rw [ih]
      cases outcome <;> rfl

/-! ## Other outcomes -/

namespace Outcome

/-- Columns have been read. -/
def isRead : Outcome → Bool
  | failed _ => false
  | read _ _ => true

/-- Failed probes have no say. -/
theorem observed_filter_isRead (outcomes : List Outcome) :
    observed (outcomes.filter isRead) = observed outcomes := by
  induction outcomes with
  | nil => rfl
  | cons outcome rest ih =>
      cases outcome with
      | failed cause => exact ih
      | read columnType native =>
          simp only [observed] at ih
          simp only [observed, List.filter_cons, isRead, if_true, List.flatMap_cons, ih]

/-- An outcome with its columns in another order. -/
inductive Shuffles : Outcome → Outcome → Prop
  | failed (first second : SourceError) : Shuffles (.failed first) (.failed second)
  | read {columnType : String → Option ColumnType} {first second : List NativeColumn}
      (hperm : first.Perm second) : Shuffles (.read columnType first) (.read columnType second)

@[refl] theorem Shuffles.refl (outcome : Outcome) : outcome.Shuffles outcome := by
  cases outcome with
  | failed cause => exact .failed cause cause
  | read columnType native => exact .read (.refl native)

/-- Outcomes in another order, and each of them with its columns in another order. -/
def Rearranges (first second : List Outcome) : Prop :=
  ∃ middle, first.Perm middle ∧ List.Forall₂ Shuffles middle second

theorem Rearranges.perm_observed {first second : List Outcome}
    (hrearranges : Rearranges first second) : (observed first).Perm (observed second) := by
  obtain ⟨middle, hperm, hshuffles⟩ := hrearranges
  refine (hperm.flatMap_right _).trans ?_
  clear hperm
  induction hshuffles with
  | nil => exact .refl _
  | cons hfirst _ ih =>
      rw [List.flatMap_cons, observed, List.flatMap_cons]
      refine .append ?_ ih
      cases hfirst with
      | failed => exact .refl _
      | read hperm => exact hperm.map _

end Outcome

end Reading

end MetricCatalog
