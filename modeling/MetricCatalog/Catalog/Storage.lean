/-
# The catalog in a file

A catalog is kept as one JSON file. It is written to a file beside it first,
whose name holds the identifier of the process that writes, and then put in
place by a renaming, so that a reader never meets half a catalog.
-/

import MetricCatalog.Catalog.Codec
import MetricCatalog.Files.Tree
import MetricCatalog.Json.Printer

namespace MetricCatalog

/-- Why a catalog cannot be read or written. -/
inductive StorageError
  /-- The system refuses. -/
  | inaccessible (path : Path) (cause : OsError)
  /-- The file holds no catalog. -/
  | undecodable (cause : DecodeError)
  deriving DecidableEq, Repr

/-- The text of the complaint. -/
def StorageError.message : StorageError → String
  | inaccessible path cause => s!"Failed to access catalog at '{path}': {cause.message}"
  | undecodable cause => s!"Failed to decode catalog from storage: {cause.message Json.wording}"

/-- A single operation on files. -/
inductive FileStep
  /-- Makes a directory and the ones above it that are missing. -/
  | makeDirectories (path : Path)
  | write (path : Path) (text : String)
  /-- Puts a file at another path. -/
  | rename (source target : Path)
  deriving DecidableEq, Repr

namespace FileStep

/-- The path that a complaint about the step names. -/
def place : FileStep → Path
  | makeDirectories path => path
  | write path _ => path
  | rename _ target => target

/-- Does the step. -/
def perform (now : Instant) (tree : FileTree) : FileStep → Except OsError FileTree
  | makeDirectories path => tree.makeDirectories path now
  | write path text => tree.write path (.text text) now
  | rename source target => tree.rename source target

/-- Does steps in order, up to the first that cannot be done. -/
def performAll (now : Instant) : FileTree → List FileStep →
    Except (Path × OsError) Unit × FileTree
  | tree, [] => (.ok (), tree)
  | tree, step :: rest =>
      match step.perform now tree with
      | .ok tree => performAll now tree rest
      | .error error => (.error (step.place, error), tree)

end FileStep

/-- Where a process keeps the catalog. -/
structure Storage where
  /-- The path of the file. -/
  path : Path
  /-- The identifier of the process. -/
  process : Uuid
  deriving DecidableEq, Repr

namespace Storage

/-- The path of the file that is written first. -/
def temporaryPath (storage : Storage) : Path :=
  let name := storage.path.fileName?.getD ""
  storage.path.withFileName s!"{name}.{storage.process}.tmp"

/-- A catalog as it is written. -/
def encode (catalog : Catalog) : String := (Codec.ofCatalog catalog).pretty

/-- The steps that write a catalog. -/
def writeSteps (storage : Storage) (catalog : Catalog) : List FileStep :=
  let directories :=
    match storage.path.parent? with
    | some parent => if parent.text.isEmpty then [] else [FileStep.makeDirectories parent]
    | none => []
  directories ++
    [.write storage.temporaryPath (encode catalog), .rename storage.temporaryPath storage.path]

/-- Writes a catalog. -/
def write (storage : Storage) (now : Instant) (tree : FileTree) (catalog : Catalog) :
    Except StorageError Unit × FileTree :=
  let (result, tree) := FileStep.performAll now tree (storage.writeSteps catalog)
  (result.mapError fun error => .inaccessible error.1 error.2, tree)

/-- The number of bytes of the character at the start of some bytes; zero if there is none. -/
def characterWidth (bytes : List UInt8) : Nat :=
  ([1, 2, 3, 4].find? fun width =>
    (String.fromUTF8? ⟨(bytes.take width).toArray⟩).any fun text => text.length = 1).getD 0

/-- Bytes as text. One that belongs to no character reads like half a surrogate pair, which stands
for no character either. The fuel bounds the steps. -/
def readBytes : Nat → List UInt8 → String
  | 0, _ => ""
  | _ + 1, [] => ""
  | fuel + 1, byte :: rest =>
      match characterWidth (byte :: rest) with
      | 0 => "\\ud800" ++ readBytes fuel rest
      | width =>
          let text := String.fromUTF8? ⟨((byte :: rest).take width).toArray⟩
          text.getD "" ++ readBytes fuel ((byte :: rest).drop width)

/-- What a file holds, as text. -/
def textOf : Contents → String
  | .text text => text
  | .raw bytes => readBytes bytes.length bytes

/-- The catalog that contents hold. -/
def decode (contents : Contents) : Except StorageError Catalog :=
  (Json.decodeText Codec.readCatalog (textOf contents)).mapError .undecodable

/-- Reads the catalog, if there is one. -/
def read (tree : FileTree) (path : Path) : Except StorageError (Option Catalog) :=
  match tree.read path with
  | .ok contents => (decode contents).map some
  | .error .notFound => .ok none
  | .error error => .error (.inaccessible path error)

end Storage

end MetricCatalog
