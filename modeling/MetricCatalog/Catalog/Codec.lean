/-
# Records in JSON

For every record its form in JSON and the reader that takes the form back.
Fields are written in the order of declaration and may stand in any order when
they are read; a field that may be missing is written as `null`.
-/

import MetricCatalog.Catalog.Record
import MetricCatalog.Json.Decoder
import MetricCatalog.Time.Timestamp

namespace MetricCatalog

namespace Codec

open Json RecordReader

/-- A text that may be missing. -/
def ofText? (text : Option String) : Json := Json.ofOption (text.map Json.str)

/-- An identifier as a text. -/
def ofUuid (id : Uuid) : Json := .str id.format

/-- An instant as a text. -/
def ofInstant (instant : Instant) : Json := .str instant.format

/-- An instant that may be missing. -/
def ofInstant? (instant : Option Instant) : Json := Json.ofOption (instant.map ofInstant)

/-- A double; what is not a number of finite size is written as `null`. -/
def ofDouble (x : Double) : Json :=
  if x.isFinite then .num (Layout.json.numeral x) else .null

/-- Reads an identifier. -/
def readUuid : Decoder Uuid := readText "a formatted UUID string" Uuid.parse?

/-- Reads an instant. -/
def readInstant : Decoder Instant :=
  readText "an RFC 3339 formatted date and time string" Instant.parse?

/-- Reads a natural number of 64 bits. -/
def readWord : Decoder UInt64 := fun value =>
  (readNat "u64" UInt64.size value).map UInt64.ofNat

/-- The names of the column types. -/
def columnTypeTags : List String := ColumnType.all.map ColumnType.tag

/-- Reads a column type. -/
def readColumnType : Decoder ColumnType :=
  readVariant columnTypeTags fun name => (ColumnType.ofTag? name).map bareChoice

/-- The names of the query states. -/
def queryStateNames : List String := QueryState.all.map QueryState.name

/-- The query state of a name. -/
def queryState? (name : String) : Option QueryState := QueryState.all.find? (·.name == name)

/-- Reads a query state. -/
def readQueryState : Decoder QueryState :=
  readVariant queryStateNames fun name => (queryState? name).map bareChoice

/-- A database in JSON. -/
def ofDatabase (database : Database) : Json :=
  Json.record [
    ("id", ofUuid database.id),
    ("name", .str database.name),
    ("uri", .str database.uri),
    ("description", ofText? database.description),
    ("created_at", ofInstant database.createdAt),
    ("updated_at", ofInstant database.updatedAt)]

/-- The fields of a database. -/
def databaseReader : RecordReader Json Database :=
  map (fun (id, name, uri, description, createdAt, updatedAt) =>
      ⟨id, name, uri, description, createdAt, updatedAt⟩)
    (both (required "id" readUuid)
    (both (required "name" readString)
    (both (required "uri" readString)
    (both (optional "description" (readOption readString))
    (both (required "created_at" readInstant)
      (required "updated_at" readInstant))))))

/-- Reads a database. -/
def readDatabase : Decoder Database := readRecord "struct Database" databaseReader

/-- A representation in JSON. -/
def ofRepresentation (representation : Representation) : Json :=
  Json.record [
    ("database", .str representation.database),
    ("schema", ofText? representation.schema),
    ("table", .str representation.table)]

/-- The fields of a representation. -/
def representationReader : RecordReader Json Representation :=
  map (fun (database, schema, table) => ⟨database, schema, table⟩)
    (both (required "database" readString)
    (both (optional "schema" (readOption readString))
      (required "table" readString)))

/-- Reads a representation. -/
def readRepresentation : Decoder Representation :=
  readRecord "struct Representation" representationReader

/-- A column in JSON. -/
def ofColumn (column : Column) : Json :=
  Json.record [("name", .str column.name), ("type", .str column.type.tag)]

/-- The fields of a column. -/
def columnReader : RecordReader Json Column :=
  map (fun (name, type) => ⟨name, type⟩)
    (both (required "name" readString) (required "type" readColumnType))

/-- Reads a column. -/
def readColumn : Decoder Column := readRecord "struct Column" columnReader

/-- A node in JSON. -/
def ofNode (node : Node) : Json :=
  Json.record [
    ("id", ofUuid node.id),
    ("name", .str node.name),
    ("description", ofText? node.description),
    ("expression", ofText? node.expression),
    ("representations", .arr (node.representations.map ofRepresentation)),
    ("columns", .arr (node.columns.map ofColumn)),
    ("created_at", ofInstant node.createdAt),
    ("updated_at", ofInstant node.updatedAt)]

/-- The fields of a node. -/
def nodeReader : RecordReader Json Node :=
  map (fun (id, name, description, expression, representations, columns, createdAt, updatedAt) =>
      ⟨id, name, description, expression, representations, columns, createdAt, updatedAt⟩)
    (both (required "id" readUuid)
    (both (required "name" readString)
    (both (optional "description" (readOption readString))
    (both (optional "expression" (readOption readString))
    (both (required "representations" (readList readRepresentation))
    (both (required "columns" (readList readColumn))
    (both (required "created_at" readInstant)
      (required "updated_at" readInstant))))))))

/-- Reads a node. -/
def readNode : Decoder Node := readRecord "struct Node" nodeReader

/-- The fields of a query in JSON. -/
def queryFields (query : Query) : List (String × Json) := [
  ("id", ofUuid query.id),
  ("database", .str query.database),
  ("catalog", ofText? query.catalog),
  ("submitted_query", .str query.submittedQuery),
  ("executed_query", ofText? query.executedQuery),
  ("state", .str query.state.name),
  ("scheduled", ofInstant? query.scheduled),
  ("started", ofInstant? query.started),
  ("finished", ofInstant? query.finished),
  ("progress", ofDouble query.progress)]

/-- A query in JSON. -/
def ofQuery (query : Query) : Json := Json.record (queryFields query)

/-- The fields of a query, with the reader for its state. -/
def queryReader (readState : Decoder QueryState) : RecordReader Json Query :=
  map (fun (id, database, catalog, submitted, executed, state, scheduled, started, finished,
        progress) =>
      ⟨id, database, catalog, submitted, executed, state, scheduled, started, finished, progress⟩)
    (both (required "id" readUuid)
    (both (required "database" readString)
    (both (optional "catalog" (readOption readString))
    (both (required "submitted_query" readString)
    (both (optional "executed_query" (readOption readString))
    (both (required "state" readState)
    (both (optional "scheduled" (readOption readInstant))
    (both (optional "started" (readOption readInstant))
    (both (optional "finished" (readOption readInstant))
      (required "progress" readDouble))))))))))

/-- Reads a query. -/
def readQuery : Decoder Query := readRecord "struct Query" (queryReader readQueryState)

/-- A map with texts as keys in JSON. -/
def ofEntries {α : Type} (key : α → String) (encode : α → Json) (entries : List α) : Json :=
  Json.record (entries.map fun entry => (key entry, encode entry))

/-- A catalog in JSON. -/
def ofCatalog (catalog : Catalog) : Json :=
  Json.record [
    ("version", Json.nat catalog.version.toNat),
    ("databases", ofEntries (·.1) (ofDatabase ·.2) catalog.databases.entries),
    ("nodes", ofEntries (·.1) (ofNode ·.2) catalog.nodes.entries),
    ("queries", ofEntries (·.1.format) (ofQuery ·.2) catalog.queries.entries)]

/-- Reads a map; of two fields with one key the later one counts. -/
def readKeyMap {κ α : Type} [KeyOrder κ] (readKey : String → Except DecodeError κ)
    (read : Decoder α) : Decoder (KeyMap κ α) :=
  Json.readMap KeyMap.empty (fun entry map => map.insert entry.1 entry.2) fun key value => do
    let key ← readKey key
    let value ← read value
    return (key, value)

/-- Reads a key that is an identifier. -/
def readUuidKey (text : String) : Except DecodeError Uuid :=
  match Uuid.parse? text with
  | some id => .ok id
  | none => .error .malformed

/-- The fields of a catalog. -/
def catalogReader : RecordReader Json Catalog :=
  map (fun (version, databases, nodes, queries) => ⟨version, databases, nodes, queries⟩)
    (both (required "version" readWord)
    (both (required "databases" (readKeyMap .ok readDatabase))
    (both (required "nodes" (readKeyMap .ok readNode))
      (required "queries" (readKeyMap readUuidKey readQuery)))))

/-- Reads a catalog. -/
def readCatalog : Decoder Catalog := readRecord "struct CatalogState" catalogReader

/-- A change in JSON: an object whose only key is its name. -/
def ofMutation : Mutation → Json
  | .createDatabase database => Json.record [("CreateDatabase", ofDatabase database)]
  | .dropDatabase name => Json.record [("DropDatabase", Json.record [("name", .str name)])]
  | .createNode node => Json.record [("CreateNode", ofNode node)]
  | .dropNode name => Json.record [("DropNode", Json.record [("name", .str name)])]
  | .putQuery query => Json.record [("PutQuery", ofQuery query)]

/-- Reads the name in a change that removes an entry. -/
def readDrop (variant : String) : Decoder String :=
  readRecord s!"struct variant Mutation::{variant}" (required "name" readString)

/-- Reads a change. -/
def readMutation : Decoder Mutation :=
  readVariant ["CreateDatabase", "DropDatabase", "CreateNode", "DropNode", "PutQuery"] fun
    | "CreateDatabase" =>
        some (choiceOf "newtype variant" fun value =>
          (readDatabase value).map .createDatabase)
    | "DropDatabase" =>
        some (choiceOf "struct variant" fun value =>
          (readDrop "DropDatabase" value).map .dropDatabase)
    | "CreateNode" =>
        some (choiceOf "newtype variant" fun value => (readNode value).map .createNode)
    | "DropNode" =>
        some (choiceOf "struct variant" fun value => (readDrop "DropNode" value).map .dropNode)
    | "PutQuery" =>
        some (choiceOf "newtype variant" fun value => (readQuery value).map .putQuery)
    | _ => none

end Codec

end MetricCatalog
