/-
# Kinds of databases

There are two kinds of databases: embedded ones, kept in a file or in memory, and
scripted ones, whose tables and answers are declared up front. Each kind has its
own native types, and maps them to the portable ones.
-/

import MetricCatalog.ColumnType
import MetricCatalog.Source.Uri

namespace MetricCatalog

/-- A kind of database. -/
inductive SourceKind
  /-- Tables and answers are declared up front. -/
  | scripted
  /-- A database in a file or in memory. -/
  | embedded
  deriving DecidableEq, Repr

namespace SourceKind

/-- The scheme of the URIs of such databases. -/
def scheme : SourceKind → String
  | scripted => "debug"
  | embedded => "sqlite"

/-- The kind of database a scheme names. -/
def ofScheme? (text : String) : Option SourceKind :=
  [scripted, embedded].find? (·.scheme == text)

/-- Whether a text contains a word. -/
def containsWord (word : List Char) : List Char → Bool
  | [] => word.isEmpty
  | c :: rest => word.isPrefixOf (c :: rest) || containsWord word rest

/-- Whether a text contains one of some words. -/
def containsAny (words : List String) (text : List Char) : Bool :=
  words.any fun word => containsWord word.toList text

/-- The text with its capital letters made small. -/
def lowered (text : String) : List Char := text.toList.map Char.toLower

/-- The coarse kind of a native type of an embedded database. Dates come before numbers, so that
no type is taken for a number by a part of the word for a time. -/
def classifyDeclared (text : List Char) : Option NativeTypeBucket :=
  if containsAny ["date", "time"] text then some .datetime
  else if containsAny ["int", "real", "floa", "doub", "num", "dec"] text then some .number
  else if containsAny ["char", "clob", "text"] text then some .string
  else if containsAny ["blob"] text then some .binary
  else none

/-- The column type of a native type of an embedded database. Some names stand for themselves;
the others follow the rules by which such a database decides how to store a column. -/
def columnTypeOfDeclared (text : List Char) : Option ColumnType :=
  match String.ofList text with
  | "boolean" | "bool" => some .bool
  | "date" => some .date
  | "time" => some .time
  | "datetime" | "timestamp" => some .datetime
  | "json" => some .dict
  | "" => some .bytes
  | _ =>
      if containsAny ["int"] text then some .int
      else if containsAny ["char", "clob", "text"] text then some .str
      else if containsAny ["blob"] text then some .bytes
      else if containsAny ["real", "floa", "doub"] text then some .float
      else if "numeric".toList.isPrefixOf text || "decimal".toList.isPrefixOf text then
        some .decimal
      else none

/-- The coarse kind of a native type in the description of a cursor. -/
def classify (kind : SourceKind) (native : String) : Option NativeTypeBucket :=
  match kind with
  | embedded => classifyDeclared (lowered native)
  | scripted =>
      match native with
      | "STRING" => some .string
      | "BINARY" => some .binary
      | "NUMBER" => some .number
      | "DATETIME" => some .datetime
      | _ => none

/-- The column type of a native type of a table. Scripted tables are declared with portable
types. -/
def columnType (kind : SourceKind) (native : String) : Option ColumnType :=
  match kind with
  | embedded => columnTypeOfDeclared (lowered native)
  | scripted => ColumnType.ofTag? native

end SourceKind

/-- Where an embedded database lives. -/
inductive EmbeddedPath
  /-- In memory, for one connection. -/
  | memory
  /-- In a file. -/
  | file (path : String)
  deriving DecidableEq, Repr

/-- Where the embedded database of a URI lives: three slashes stand before the path of a file,
and without a path the database is in memory. -/
def ConnectionUri.embeddedPath (uri : ConnectionUri) : EmbeddedPath :=
  match uri.remainder.toList with
  | '/' :: path => if path.isEmpty then .memory else .file (String.ofList path)
  | _ => .memory

end MetricCatalog
