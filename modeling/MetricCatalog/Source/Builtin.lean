/-
# The drivers that come with the program

Drivers for scripted and for embedded databases, picked by the scheme of a URI.
Embedded databases live in memory, one for every connection, or in files, which
connections share.
-/

import MetricCatalog.Environment
import MetricCatalog.Source.Embedded.Database
import MetricCatalog.Source.Embedded.Prepared
import MetricCatalog.Source.Scripted

namespace MetricCatalog

/-- What the databases keep outside of files. -/
structure Sources where
  scripted : Scripted.State
  /-- The embedded databases in memory, by the number of their connection. -/
  memory : KeyMap Nat Embedded.Database
  deriving Repr, Inhabited

/-- An open connection. -/
inductive Connection
  | scripted (database : String)
  | memory (number : Nat)
  | file (path : String)
  deriving DecidableEq, Repr

namespace Connection

/-- The kind of database it leads to. -/
def kind : Connection → SourceKind
  | scripted _ => .scripted
  | memory _ | file _ => .embedded

/-- The connection as it is shown to a person who looks for a fault. -/
def describe : Connection → String
  | scripted _ => Text.shown SourceKind.scripted.scheme
  | memory _ => "SqliteConnection \x7b client: SqliteAsyncClient(:memory:) \x7d"
  | file path => "SqliteConnection \x7b client: SqliteAsyncClient(" ++ path ++ ") \x7d"

end Connection

namespace Builtin

/-- The surroundings of a run with these drivers. -/
abbrev Surroundings := Environment Sources

/-- The surroundings with other scripted databases. -/
def withScripted (environment : Surroundings) (scripted : Scripted.State) : Surroundings :=
  { environment with sources := { environment.sources with scripted := scripted } }

/-- Opens a connection to an embedded database. A file that is not there is made. -/
def connectEmbedded (path : EmbeddedPath) (environment : Surroundings) :
    Except SourceError Connection × Surroundings :=
  match path with
  | .memory =>
      let memory := environment.sources.memory
      let number := memory.entries.length
      let sources := { environment.sources with memory := memory.insert number default }
      (.ok (.memory number), { environment with sources := sources })
  | .file path =>
      let refused := (.error (.embedded s!"unable to open database file: {path}"), environment)
      match environment.files.lookup ⟨path⟩ with
      | .ok (.file _ _) => (.ok (.file path), environment)
      | .ok (.directory _) => refused
      | .error _ =>
          match environment.files.write ⟨path⟩ (.text "") environment.now with
          | .ok files => (.ok (.file path), { environment with files := files })
          | .error _ => refused

/-- The embedded database in a file. -/
def databaseAt (environment : Surroundings) (path : String) :
    Except SourceError Embedded.Database :=
  match environment.files.read ⟨path⟩ with
  | .ok (.text text) =>
      match Embedded.Database.decode text with
      | some database => .ok database
      | none => .error (.embedded "file is not a database")
  | .ok (.raw _) => .error (.embedded "file is not a database")
  | .error _ => .ok default

/-- The embedded database of a connection. -/
def databaseOf (environment : Surroundings) (connection : Connection) :
    Except SourceError Embedded.Database :=
  match connection with
  | .file path => databaseAt environment path
  | .memory number => .ok ((environment.sources.memory.find? number).getD default)
  | .scripted _ => .ok default

/-- The surroundings after a change of an embedded database. -/
def keepDatabase (environment : Surroundings) (connection : Connection)
    (database : Embedded.Database) : Surroundings :=
  match connection with
  | .file path =>
      match environment.files.write ⟨path⟩ (.text database.encode) environment.now with
      | .ok files => { environment with files := files }
      | .error _ => environment
  | .memory number =>
      let memory := environment.sources.memory.insert number database
      { environment with sources := { environment.sources with memory := memory } }
  | .scripted _ => environment

/-- Runs a statement in an embedded database. -/
def executeEmbedded (connection : Connection) (sql : String) (environment : Surroundings) :
    Except SourceError Cursor × Surroundings :=
  let outcome : Except SourceError (Cursor × Surroundings) := do
    let database ← databaseOf environment connection
    let (outcome, changed) ← (database.execute sql).mapError .embedded
    let statement : Embedded.Prepared (List (Except String Row)) :=
      ⟨outcome.columns, outcome.rows.map .ok⟩
    let cursor ← (statement.execute .ofList (Batch.ends_ofList _)).mapError .embedded
    return (cursor,
      if changed.statements = database.statements then environment
      else keepDatabase environment connection changed)
  match outcome with
  | .ok (cursor, environment) => (.ok cursor, environment)
  | .error error => (.error error, environment)

/-- The columns of a table of an embedded database. It gives a row for each of them, of which the
name and the declared type are read. -/
def describeEmbedded (connection : Connection) (table : String) (schema : Option String)
    (environment : Surroundings) : Except SourceError (List NativeColumn) := do
  let database ← databaseOf environment connection
  let described ← (database.describe schema table).mapError .embedded
  let statement : Embedded.Prepared (List (Except String (String × String))) :=
    ⟨[("name", none), ("type", none)], described.map .ok⟩
  let columns ← (statement.queryAll .ofList (Batch.ends_ofList _)).mapError .embedded
  if columns.isEmpty then .error (.tableNotFound (qualifiedName schema table))
  else .ok (columns.map fun (name, type) => ⟨name, type⟩)

/-- Opens a connection by one of the given kinds of drivers. -/
def connect (kinds : List SourceKind) (uri : String) (environment : Surroundings) :
    Except SourceError Connection × Surroundings :=
  match ConnectionUri.parse uri with
  | .error fault => (.error (.invalidUri (Text.trimmed uri) fault), environment)
  | .ok uri =>
      match kinds.find? (·.scheme = uri.scheme) with
      | none => (.error (.unsupportedScheme uri.scheme), environment)
      | some .scripted =>
          ((environment.sources.scripted.connect uri).map .scripted, environment)
      | some .embedded => connectEmbedded uri.embeddedPath environment

/-- Starts to read the columns of a table. -/
def introspect (connection : Connection) (table : String) (schema : Option String)
    (environment : Surroundings) : Probe Surroundings × Surroundings :=
  match connection with
  | .scripted database =>
      let scripted := environment.sources.scripted
      match scripted.startProbe database schema table with
      | (.error error, scripted) => (.answered (.error error), withScripted environment scripted)
      | (.ok found, scripted) =>
          let finish (environment : Surroundings) :=
            let (answer, scripted) :=
              environment.sources.scripted.finishProbe database (qualifiedName schema table) found
            (answer, withScripted environment scripted)
          (⟨found.delay, finish⟩, withScripted environment scripted)
  | connection => (.answered (describeEmbedded connection table schema environment), environment)

/-- Runs a statement. -/
def execute (connection : Connection) (sql : String) (environment : Surroundings) :
    Except SourceError Cursor × Surroundings :=
  match connection with
  | .scripted database =>
      let (answer, scripted) := environment.sources.scripted.execute database sql
      (answer, withScripted environment scripted)
  | connection => executeEmbedded connection sql environment

/-- The drivers of the given kinds. -/
def drivers (kinds : List SourceKind) : Drivers Surroundings Connection where
  connect := connect kinds
  introspect := introspect
  execute := execute
  classify connection := connection.kind.classify
  columnType connection := connection.kind.columnType

/-- The schemes of drivers as they are shown to a person who looks for a fault. -/
def describe (kinds : List SourceKind) : String :=
  let schemes := [SourceKind.scripted, .embedded].filter kinds.contains
  "DriverRegistry \x7b schemes: [" ++
    ", ".intercalate (schemes.map fun kind => Text.shown kind.scheme) ++ "] \x7d"

end Builtin

end MetricCatalog
