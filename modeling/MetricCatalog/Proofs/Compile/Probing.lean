/-
# What probes will answer

Which columns a node gets does not depend on when its tables are probed, if each
probe has one answer. Here this is a property of drivers: in surroundings that
are steady they answer in a settled way, and leave the surroundings steady. The
drivers of scripted databases do.
-/

import Mathlib.Data.List.Forall2
import MetricCatalog.Compile.NodeTask
import MetricCatalog.Proofs.KeyMap
import MetricCatalog.Source.Builtin

namespace MetricCatalog

/-- What is told of the columns of a representation in a database of some name and URI. -/
abbrev Answering : Type := String → String → Representation → Except CompileError (List Column)

namespace Reading

variable {ω γ : Type} {steady : ω → Prop}

/-- The reading has an answer, or will have it, and leaves the surroundings steady. -/
inductive Gives (steady : ω → Prop) (answer : Except CompileError (List Column)) :
    Reading ω → Prop
  | settled : Gives steady answer (.settled answer)
  | underway {due : Nat} {finish : ω → Except CompileError (List Column) × ω}
      (hfinish : ∀ state, steady state → (finish state).1 = answer ∧ steady (finish state).2) :
      Gives steady answer (.underway due finish)

/-- The answers for representations, of which those without a database are left out. -/
def expected (answer : Answering) (databases : KeyMap String Database)
    (representations : List Representation) : List (Except CompileError (List Column)) :=
  representations.filterMap fun representation =>
    (databases.find? representation.database).map fun database =>
      answer database.name database.uri representation

theorem Gives.wake {answer : Except CompileError (List Column)} {reading : Reading ω}
    (hgives : reading.Gives steady answer) (now : Nat) {state : ω} (hsteady : steady state) :
    (reading.wake now state).1.Gives steady answer ∧ steady (reading.wake now state).2 := by
  cases hgives with
  | settled => exact ⟨.settled, hsteady⟩
  | @underway due finish hfinish =>
      obtain ⟨hanswer, hafter⟩ := hfinish state hsteady
      simp only [Reading.wake]
      split
      · refine ⟨?_, hafter⟩
        rw [hanswer]
        exact .settled
      · exact ⟨.underway hfinish, hsteady⟩

/-- Readings have or will have some answers, in order. -/
def GiveAll (steady : ω → Prop) : List (Except CompileError (List Column)) →
    List (Reading ω) → Prop :=
  List.Forall₂ fun answer reading => reading.Gives steady answer

/-- By induction on the readings. -/
theorem GiveAll.wakeAll {answers : List (Except CompileError (List Column))}
    {readings : List (Reading ω)} (hgives : GiveAll steady answers readings) (now : Nat)
    {state : ω} (hsteady : steady state) :
    GiveAll steady answers (Reading.wakeAll now readings state).1 ∧
      steady (Reading.wakeAll now readings state).2 := by
  induction hgives generalizing state with
  | nil => exact ⟨.nil, hsteady⟩
  | cons hfirst _ ih =>
      obtain ⟨hwoken, hmiddle⟩ := hfirst.wake now hsteady
      obtain ⟨hrest, hafter⟩ := ih hmiddle
      exact ⟨.cons hwoken hrest, hafter⟩

/-- By induction on the answers: those that are there are those that were to be given. -/
theorem GiveAll.answers_eq {answers found : List (Except CompileError (List Column))}
    {readings : List (Reading ω)} (hgives : GiveAll steady answers readings)
    (hfound : readings.mapM answer? = some found) : found = answers := by
  induction hgives generalizing found with
  | nil =>
      cases hfound
      rfl
  | @cons answer reading answers readings hfirst _ ih =>
      rw [List.mapM_cons] at hfound
      cases hfirst with
      | underway => cases hfound
      | settled =>
          cases hrest : readings.mapM answer? with
          | none =>
              rw [hrest] at hfound
              cases hfound
          | some rest =>
              rw [hrest] at hfound
              cases hfound
              rw [ih hrest]

end Reading

/-- In steady surroundings each probe has one answer, whenever it is asked for, and the surroundings
stay steady. So they do when the clock is read and identifiers are made. -/
structure Drivers.Answers {σ γ : Type} (drivers : Drivers (Environment σ) γ)
    (steady : Environment σ → Prop) (answer : Answering) : Prop where
  start : ∀ now database representation environment, steady environment →
    (Reading.start drivers now database representation environment).1.Gives steady
      (answer database.name database.uri representation) ∧
    steady (Reading.start drivers now database representation environment).2
  stamp : ∀ environment, steady environment →
    steady environment.readClock.2 ∧ steady environment.newId.2

variable {σ γ : Type} {drivers : Drivers (Environment σ) γ} {steady : Environment σ → Prop}
  {answer : Answering}

/-- By induction on the representations. -/
theorem Drivers.Answers.startAll (hanswers : drivers.Answers steady answer) (now : Nat)
    (databases : KeyMap String Database) (representations : List Representation)
    {environment : Environment σ} (hsteady : steady environment) :
    Reading.GiveAll steady (Reading.expected answer databases representations)
        (Reading.startAll drivers now databases representations environment).1 ∧
      steady (Reading.startAll drivers now databases representations environment).2 := by
  induction representations generalizing environment with
  | nil => exact ⟨.nil, hsteady⟩
  | cons representation rest ih =>
      simp only [Reading.startAll, Reading.expected, List.filterMap_cons]
      cases databases.find? representation.database with
      | none => exact ih hsteady
      | some database =>
          obtain ⟨hfirst, hmiddle⟩ := hanswers.start now database representation environment hsteady
          obtain ⟨hrest, hafter⟩ := ih hmiddle
          exact ⟨.cons hfirst hrest, hafter⟩

/-- Where a database is, as far as a probe is concerned. -/
def Database.address (database : Database) : String × String := (database.name, database.uri)

/-- The answers depend on where the databases are. -/
theorem Reading.expected_congr {first second : KeyMap String Database}
    (haddress : first.mapValues Database.address = second.mapValues Database.address)
    (answer : Answering) (representations : List Representation) :
    expected answer first representations = expected answer second representations := by
  refine List.filterMap_congr fun representation _ => ?_
  have hfind := congrArg (·.find? representation.database) haddress
  simp only [KeyMap.find?_mapValues] at hfind
  have hanswer := congrArg
    (Option.map fun place : String × String => answer place.1 place.2 representation) hfind
  rwa [Option.map_map, Option.map_map] at hanswer

/-- Whether the databases of a definition are known depends on where the databases are. -/
theorem NodeTask.representations_congr {first second : KeyMap String Database}
    (haddress : first.mapValues Database.address = second.mapValues Database.address) :
    representations first = representations second := by
  funext definition
  have hcontains : ∀ name, first.contains name = second.contains name := by
    intro name
    have hfind := congrArg (fun map => (map.find? name).isSome) haddress
    rw [KeyMap.contains, KeyMap.contains]
    simpa only [KeyMap.find?_mapValues, Option.isSome_map] using hfind
  simp only [representations, hcontains]

/-! ## Scripted databases -/

namespace Scripted

/-- Tables, and databases that refuse connections, are there as declared. -/
def Holds (declared : State) (environment : Builtin.Surroundings) : Prop :=
  environment.sources.scripted.tables = declared.tables ∧
    environment.sources.scripted.unreachable = declared.unreachable

/-- What a scripted database answers with nothing else going on. -/
def answering (declared : State) : Answering := fun name uri representation =>
  (Reading.run (Builtin.drivers [.scripted]) ⟨default, name, uri, none, ⟨0, 0⟩, ⟨0, 0⟩⟩
    representation ⟨default, ⟨0, 0⟩, 0, ⟨declared, .empty⟩⟩).1

/-- What is done with a scripted database has no effect on later answers. -/
theorem drivers_answers (declared : State) :
    (Builtin.drivers [.scripted]).Answers (Holds declared) (answering declared) where
  start := by
    rintro now database representation environment ⟨htables, hunreachable⟩
    simp only [answering, Reading.run, Reading.start, Builtin.drivers, Builtin.connect]
    cases ConnectionUri.parse database.uri with
    | error fault => exact ⟨.settled, htables, hunreachable⟩
    | ok uri =>
        simp only
        cases hkind : [SourceKind.scripted].find? (·.scheme = uri.scheme) with
        | none => exact ⟨.settled, htables, hunreachable⟩
        | some kind =>
            obtain rfl : kind = .scripted := List.mem_singleton.mp (List.mem_of_find?_eq_some hkind)
            have hconnect : environment.sources.scripted.connect uri = declared.connect uri := by
              simp only [State.connect, hunreachable]
            simp only [hconnect]
            cases declared.connect uri with
            | error error => exact ⟨.settled, htables, hunreachable⟩
            | ok name =>
                obtain ⟨found, hfound⟩ : ∃ found, declared.tables.find? (State.tableKey
                    name representation.schema representation.table) = found := ⟨_, rfl⟩
                simp only [Except.map, Builtin.introspect, State.startProbe, htables, hfound]
                cases found with
                | none => exact ⟨.settled, htables, hunreachable⟩
                | some table =>
                    simp only
                    by_cases hwait : table.delay = 0
                    · simp only [hwait, if_true]
                      exact ⟨.settled, htables, hunreachable⟩
                    · simp only [hwait, if_false]
                      exact ⟨.underway fun state hstate => ⟨rfl, hstate⟩, htables, hunreachable⟩
  stamp := fun _ hholds => ⟨hholds, hholds⟩

end Scripted

end MetricCatalog
