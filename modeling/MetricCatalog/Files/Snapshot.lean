/-
# Snapshots of files

Files and directories in JSON, as they stand at some time. An entry has the
contents of a file, as a text or as bytes, or none if it is a directory. Of two
snapshots the later one is described by the entries that are not in the earlier.
-/

import MetricCatalog.Catalog.Codec
import MetricCatalog.Files.Tree

namespace MetricCatalog

/-- The files at some time. -/
structure Snapshot where
  now : Instant
  /-- A number that no other snapshot has. -/
  seed : Nat
  files : FileTree
  deriving Repr, Inhabited

namespace Codec

open Json RecordReader

/-- Reads a byte. -/
def readByte : Decoder UInt8 := fun value => (readNat "a byte" 256 value).map UInt8.ofNat

/-- Reads the names of an entry and what stands there. -/
def readFileEntry : Decoder (Path × FileEntry) :=
  readRecord "a file" <|
    map (fun (path, modified, text, bytes) =>
        let modified := modified.getD default
        match text, bytes with
        | some text, _ => (⟨path⟩, .file (.text text) modified)
        | none, some bytes => (⟨path⟩, .file (.ofBytes bytes) modified)
        | none, none => (⟨path⟩, .directory modified))
      (both (required "path" readString)
      (both (optional "modified" (readOption readInstant))
      (both (optional "text" (readOption readString))
        (optional "bytes" (readOption (readList readByte))))))

/-- A tree with an entry put into it. An entry that fits nowhere is left out. -/
def placeEntry (now : Instant) (tree : FileTree) (entry : Path × FileEntry) : FileTree :=
  (tree.place entry.1 entry.2 now).toOption.getD tree

/-- Reads a snapshot. Relative paths start at its directory. -/
def readSnapshot : Decoder Snapshot :=
  readRecord "a snapshot" <|
    map (fun (now, seed, directory, entries) =>
        let directory := Path.mk (directory.getD "/")
        let root := (FileTree.makeDirectories ⟨.empty, []⟩ directory now).toOption.getD default
        let names := (root.resolve directory).toOption.getD []
        let tree : FileTree := { root with workingDirectory := names }
        ⟨now, seed.getD 0, entries.foldl (placeEntry now) tree⟩)
      (both (required "now" readInstant)
      (both (optional "seed" (readOption (readNat "a number" UInt64.size)))
      (both (optional "directory" (readOption readString))
        (required "files" (readList readFileEntry)))))

/-- An entry in JSON. -/
def ofFileEntry (names : List String) (entry : FileEntry) : Json :=
  let path := "/" ++ "/".intercalate names
  match entry with
  | .directory modified =>
      Json.record [("path", .str path), ("modified", ofInstant modified)]
  | .file (.text text) modified =>
      Json.record [("path", .str path), ("modified", ofInstant modified), ("text", .str text)]
  | .file (.raw bytes) modified =>
      Json.record [("path", .str path), ("modified", ofInstant modified),
        ("bytes", .arr (bytes.map fun byte => Json.nat byte.toNat))]

/-- The entries of a tree that another one does not have. -/
def ofChanges (before after : FileTree) : List Json :=
  after.entries.entries.filterMap fun (names, entry) =>
    if before.entries.find? names = some entry then none else some (ofFileEntry names entry)

end Codec

end MetricCatalog
