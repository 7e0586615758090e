/-
# Files and directories

The files a program sees, as a value: every name below the root leads to a
directory or to a file with its contents and its time of modification. Paths are
followed part by part, and an operation that cannot be done answers with the
error the system would give.
-/

import MetricCatalog.Files.Path
import MetricCatalog.Time.Instant

namespace MetricCatalog

/-- What a file holds. -/
inductive Contents
  /-- A text in its encoded form. -/
  | text (value : String)
  /-- Bytes that are not the encoded form of a text. -/
  | raw (bytes : List UInt8)
  deriving DecidableEq, Repr, Inhabited

/-- The contents with the given bytes. -/
def Contents.ofBytes (bytes : List UInt8) : Contents :=
  match String.fromUTF8? ⟨bytes.toArray⟩ with
  | some decoded => .text decoded
  | none => .raw bytes

/-- What a name in a directory leads to. -/
inductive FileEntry
  /-- A directory, and when it was made. -/
  | directory (modified : Instant)
  /-- A file, and when it was written last. -/
  | file (contents : Contents) (modified : Instant)
  deriving DecidableEq, Repr

/-- Why an operation on files cannot be done. -/
inductive OsError
  /-- A name does not lead anywhere. -/
  | notFound
  /-- There is something already. -/
  | alreadyExists
  /-- A file stands where a directory was wanted. -/
  | notDirectory
  /-- A directory stands where a file was wanted. -/
  | isDirectory
  /-- A name or a path is too long. -/
  | nameTooLong
  /-- The contents are not a text. -/
  | notText
  /-- A name has a zero in it. -/
  | zeroInName
  deriving DecidableEq, Repr

/-- The text of the complaint. -/
def OsError.message : OsError → String
  | notFound => "No such file or directory (os error 2)"
  | alreadyExists => "File exists (os error 17)"
  | notDirectory => "Not a directory (os error 20)"
  | isDirectory => "Is a directory (os error 21)"
  | nameTooLong => "File name too long (os error 36)"
  | notText => "stream did not contain valid UTF-8"
  | zeroInName => "file name contained an unexpected NUL byte"

/-- Files and directories, seen from a working directory. -/
structure FileTree where
  /-- What stands at the names below the root. -/
  entries : KeyMap (List String) FileEntry
  /-- The names that lead from the root to the working directory. -/
  workingDirectory : List String
  deriving DecidableEq, Repr, Inhabited

namespace FileTree

/-- What stands at some names. The root is a directory. -/
def entry? (tree : FileTree) (names : List String) : Option FileEntry :=
  match names with
  | [] => some (.directory default)
  | names => tree.entries.find? names

/-- Goes from a directory along the parts of a path. All parts but the last have to lead to
directories. -/
def walk (tree : FileTree) : List String → List PathPart → Except OsError (List String)
  | names, [] => .ok names
  | names, part :: rest =>
      match tree.entry? names with
      | none => .error .notFound
      | some (.file _ _) => .error .notDirectory
      | some (.directory _) =>
          match part with
          | .root => tree.walk [] rest
          | .current => tree.walk names rest
          | .parent => tree.walk names.dropLast rest
          | .name text =>
              if 255 < text.utf8ByteSize then .error .nameTooLong
              else tree.walk (names ++ [text]) rest

/-- Whether a path can only mean a directory by the way it is written. -/
def meansDirectory (path : Path) : Bool :=
  match path.segments.getLast? with
  | some segment => segment = [] || segment = ['.'] || segment = ['.', '.']
  | none => false

/-- Whether a path ends with a slash. -/
def endsWithSlash (path : Path) : Bool := path.segments.getLast? = some []

/-- Checks that a file can be made where a path leads to nothing. If the path is written as that of
a directory, it cannot. -/
def checkNewFile (path : Path) (complaint : OsError) : Except OsError Unit :=
  if !meansDirectory path then .ok ()
  else if endsWithSlash path then .error complaint
  else .error .notFound

/-- The names that a path leads to. There need not be anything at the last of them. -/
def resolve (tree : FileTree) (path : Path) : Except OsError (List String) := do
  if path.text.toList.contains '\x00' then .error .zeroInName
  else if path.text.isEmpty then .error .notFound
  else if 4096 ≤ path.text.utf8ByteSize then .error .nameTooLong
  else
    let names ← tree.walk tree.workingDirectory path.parts
    match tree.entry? names with
    | some (.file _ _) => if meansDirectory path then .error .notDirectory else .ok names
    | _ => .ok names

/-- What a path leads to. -/
def lookup (tree : FileTree) (path : Path) : Except OsError FileEntry := do
  let names ← tree.resolve path
  match tree.entry? names with
  | some entry => .ok entry
  | none => .error .notFound

/-- Whether a path leads to a directory. -/
def isDirectory (tree : FileTree) (path : Path) : Bool :=
  match tree.lookup path with
  | .ok (.directory _) => true
  | _ => false

/-- Whether a path leads anywhere. -/
def exists? (tree : FileTree) (path : Path) : Bool :=
  match tree.lookup path with
  | .ok _ => true
  | .error _ => false

/-- The contents of a file. -/
def read (tree : FileTree) (path : Path) : Except OsError Contents := do
  match ← tree.lookup path with
  | .directory _ => .error .isDirectory
  | .file contents _ => .ok contents

/-- The contents of a file that is a text. -/
def readText (tree : FileTree) (path : Path) : Except OsError String := do
  match ← tree.read path with
  | .text text => .ok text
  | .raw _ => .error .notText

/-- When a file was written last, or a directory made. -/
def modified (tree : FileTree) (path : Path) : Except OsError Instant := do
  match ← tree.lookup path with
  | .directory modified | .file _ modified => .ok modified

/-- The tree with something put at some names. -/
def put (tree : FileTree) (names : List String) (entry : FileEntry) : FileTree :=
  { tree with entries := tree.entries.insert names entry }

/-- Writes a file, in place of one that was there. -/
def write (tree : FileTree) (path : Path) (contents : Contents) (now : Instant) :
    Except OsError FileTree := do
  let names ← tree.resolve path
  match tree.entry? names with
  | some (.directory _) => .error .isDirectory
  | some (.file _ _) => .ok (tree.put names (.file contents now))
  | none =>
      checkNewFile path .isDirectory
      return tree.put names (.file contents now)

/-- Makes one directory. -/
def makeDirectory (tree : FileTree) (path : Path) (now : Instant) : Except OsError FileTree := do
  let names ← tree.resolve path
  match tree.entry? names with
  | some _ => .error .alreadyExists
  | none =>
      if meansDirectory path && !endsWithSlash path then .error .notFound
      else .ok (tree.put names (.directory now))

/-- Makes a directory and the ones above it that are missing. The number of the parts of the
path bounds the way up. -/
def makeDirectoriesFrom (now : Instant) : Nat → FileTree → Path → Except OsError FileTree
  | 0, _, _ => .error .notFound
  | depth + 1, tree, path =>
      if path.text.isEmpty then .ok tree
      else
        match tree.makeDirectory path now with
        | .ok tree => .ok tree
        | .error .notFound =>
            match path.parent? with
            | none => .error .notFound
            | some parent => do
                let tree ← makeDirectoriesFrom now depth tree parent
                if tree.isDirectory path then .ok tree else tree.makeDirectory path now
        | .error error => if tree.isDirectory path then .ok tree else .error error

/-- Makes a directory and the ones above it that are missing. -/
def makeDirectories (tree : FileTree) (path : Path) (now : Instant) : Except OsError FileTree :=
  makeDirectoriesFrom now (path.parts.length + 1) tree path

/-- The tree with an entry taken from some names and put at others. -/
def move (tree : FileTree) (source target : List String) (entry : FileEntry) : FileTree :=
  { tree with entries := (tree.entries.erase source).insert target entry }

/-- Gives a file another path, in place of a file that is there. -/
def rename (tree : FileTree) (source target : Path) : Except OsError FileTree := do
  let sourceNames ← tree.resolve source
  let targetNames ← tree.resolve target
  match tree.entry? sourceNames, tree.entry? targetNames with
  | none, _ => .error .notFound
  | some (.file _ _), some (.directory _) => .error .isDirectory
  | some (.file contents modified), none =>
      checkNewFile target .notDirectory
      return tree.move sourceNames targetNames (.file contents modified)
  | some entry, _ => .ok (tree.move sourceNames targetNames entry)

/-- The tree without what stands at some names, and all below it. -/
def remove (tree : FileTree) (names : List String) : FileTree :=
  { tree with
    entries := KeyMap.ofList (tree.entries.entries.filter fun entry => !names.isPrefixOf entry.1) }

/-- The names below a directory, with what they lead to, in order. -/
def below (tree : FileTree) (names : List String) : List (List String × FileEntry) :=
  tree.entries.entries.filterMap fun entry =>
    if names.isPrefixOf entry.1 && names.length < entry.1.length then
      some (entry.1.drop names.length, entry.2)
    else none

/-- The names of the files below a directory, in order. -/
def filesBelow (tree : FileTree) (names : List String) : List (List String) :=
  (tree.below names).filterMap fun
    | (names, .file _ _) => some names
    | (_, .directory _) => none

/-- Puts something at a path, in place of a file that was there, and makes the directories above
it that are missing. -/
def place (tree : FileTree) (path : Path) (entry : FileEntry) (now : Instant) :
    Except OsError FileTree := do
  let tree ←
    match path.parent? with
    | some parent => tree.makeDirectories parent now
    | none => .ok tree
  let names ← tree.resolve path
  match entry, tree.entry? names with
  | .file _ _, some (.directory _) => .error .isDirectory
  | .directory _, some (.file _ _) => .error .alreadyExists
  | _, _ => .ok (tree.put names entry)

end FileTree

end MetricCatalog
