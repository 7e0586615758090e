/-
# Reading columns

The columns of a representation are read by probing its table, which may take
some time. What the representations of one node say is merged: a column stands
where it was seen first, with the most specific of the types it was seen with,
and a representation that cannot be read has no say.
-/

import MetricCatalog.Compile.Error

namespace MetricCatalog

/-- The reading of the columns of one representation. -/
inductive Reading (ω : Type)
  | settled (answer : Except CompileError (List Column))
  /-- The answer will be there at some millisecond. -/
  | underway (due : Nat) (finish : ω → Except CompileError (List Column) × ω)

namespace Reading

variable {ω γ : Type}

/-- The columns a probe gives. A native type that is not known counts as text. -/
def columnsOf (columnType : String → Option ColumnType) (native : List NativeColumn) :
    List Column :=
  native.map fun column => ⟨column.name, (columnType column.type).getD .str⟩

/-- Starts to read the columns of a representation. -/
def start (drivers : Drivers ω γ) (now : Nat) (database : Database)
    (representation : Representation) (state : ω) : Reading ω × ω :=
  let table := qualifiedName representation.schema representation.table
  let failure := CompileError.probeFailure database.name table
  match drivers.connect database.uri state with
  | (.error error, state) => (.settled (.error (failure error)), state)
  | (.ok connection, state) =>
      let (probe, state) :=
        drivers.introspect connection representation.table representation.schema state
      let finish (state : ω) :=
        let (answer, state) := probe.finish state
        ((answer.mapError failure).map (columnsOf (drivers.columnType connection)), state)
      if probe.wait = 0 then
        let (answer, state) := finish state
        (.settled answer, state)
      else (.underway (now + probe.wait) finish, state)

/-- The reading at some millisecond. -/
def wake (now : Nat) (reading : Reading ω) (state : ω) : Reading ω × ω :=
  match reading with
  | settled answer => (.settled answer, state)
  | underway due finish =>
      if due ≤ now then
        let (answer, state) := finish state
        (.settled answer, state)
      else (.underway due finish, state)

/-- Several readings at some millisecond. -/
def wakeAll (now : Nat) : List (Reading ω) → ω → List (Reading ω) × ω
  | [], state => ([], state)
  | reading :: rest, state =>
      let (reading, state) := reading.wake now state
      let (rest, state) := wakeAll now rest state
      (reading :: rest, state)

/-- Starts to read the columns of representations, of which those without a database are left
out. -/
def startAll (drivers : Drivers ω γ) (now : Nat) (databases : KeyMap String Database) :
    List Representation → ω → List (Reading ω) × ω
  | [], state => ([], state)
  | representation :: rest, state =>
      match databases.find? representation.database with
      | none => startAll drivers now databases rest state
      | some database =>
          let (reading, state) := start drivers now database representation state
          let (rest, state) := startAll drivers now databases rest state
          (reading :: rest, state)

/-- The millisecond of the answer, if it is not there yet. -/
def due? : Reading ω → Option Nat
  | settled _ => none
  | underway due _ => some due

/-- The answer, if it is there. -/
def answer? : Reading ω → Option (Except CompileError (List Column))
  | settled answer => some answer
  | underway _ _ => none

/-- Reads the columns of a representation, with nothing else going on. -/
def run (drivers : Drivers ω γ) (database : Database) (representation : Representation)
    (state : ω) : Except CompileError (List Column) × ω :=
  match start drivers 0 database representation state with
  | (.settled answer, state) => (answer, state)
  | (.underway _ finish, state) => finish state

/-- The milliseconds of the answers that are not there yet, in order. -/
def dueTimes (readings : List (Reading ω)) : List Nat :=
  (readings.filterMap due?).mergeSort

end Reading

namespace Column

/-- The columns after one more was seen. -/
def merge (column : Column) : List Column → List Column
  | [] => [⟨column.name, .mostSpecific none column.type⟩]
  | first :: rest =>
      if first.name = column.name then
        ⟨first.name, .mostSpecific (some first.type) column.type⟩ :: rest
      else first :: column.merge rest

/-- The columns that several readings give together. -/
def mergeAll (answers : List (Except CompileError (List Column))) : List Column :=
  let seen := answers.flatMap fun
    | .ok columns => columns
    | .error _ => []
  seen.foldl (fun columns column => column.merge columns) []

end Column

end MetricCatalog
