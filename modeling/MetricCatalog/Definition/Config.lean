/-
# What definitions say

The contents of definition files: a database has an address, a node has an
expression and the tables that represent it. A file with anything else in it is
refused.
-/

import MetricCatalog.Yaml.Decoder

namespace MetricCatalog

/-- What a definition says about a database. -/
structure DatabaseConfig where
  /-- Where to connect to. -/
  uri : String
  /-- A description for people. -/
  description : Option String
  deriving DecidableEq, Repr

/-- Where a node lives in a database. -/
structure RepresentationConfig where
  /-- The schema of the table, if it is not the default one. -/
  schema : Option String
  /-- The name of the table. -/
  table : String
  deriving DecidableEq, Repr

/-- What a definition says about a node. -/
structure NodeConfig where
  /-- A description for people. -/
  description : Option String
  /-- The expression that defines the node. -/
  expression : Option String
  /-- The representations by the names of their databases, in the order of the file. -/
  representations : List (String × RepresentationConfig)
  deriving DecidableEq, Repr

namespace Yaml

/-- Puts an entry at the end of a list, or its value in the place where its key stands. -/
def putKeeping {α : Type} (key : String) (value : α) : List (String × α) → List (String × α)
  | [] => [(key, value)]
  | (other, old) :: rest =>
      if other = key then (key, value) :: rest else (other, old) :: putKeeping key value rest

/-- Reads a definition of a database. -/
def readDatabaseConfig : Decoder DatabaseConfig :=
  readRecord "struct DatabaseConfig" <|
    (RecordReader.both (.required "uri" readString)
      (.optional "description" (readOption readString))).map fun (uri, description) =>
        ⟨uri, description⟩

/-- Reads a representation in the definition of a node. -/
def readRepresentationConfig : Decoder RepresentationConfig :=
  readRecord "struct RepresentationConfig" <|
    (RecordReader.both (.optional "schema" (readOption readString))
      (.required "table" readString)).map fun (schema, table) => ⟨schema, table⟩

/-- Reads a definition of a node. -/
def readNodeConfig : Decoder NodeConfig :=
  readRecord "struct NodeConfig" <|
    (RecordReader.both (.optional "description" (readOption readString))
      (.both (.optional "expression" (readOption readString))
        (.field "representations" (readMap [] putKeeping readRepresentationConfig)
          (some [])))).map fun (description, expression, representations) =>
            ⟨description, expression, representations⟩

end Yaml

end MetricCatalog
