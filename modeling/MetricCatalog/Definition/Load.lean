/-
# Finding and loading definitions

The definitions of a repository are the files, at any depth below the directory
of their kind, whose names end in `.yaml`. They are found in the order of their
paths. One is loaded along with its name and the time of its last change; of
the three the name is settled first and the contents last.
-/

import MetricCatalog.Definition.Config
import MetricCatalog.Definition.Name
import MetricCatalog.Files.Tree

namespace MetricCatalog

/-- A definition with what its file says. -/
structure Definition (α : Type) where
  name : String
  /-- Where its file is. -/
  path : Path
  /-- When the file was changed last. -/
  modified : Instant
  config : α
  deriving Repr

/-- Why a definition cannot be loaded. -/
inductive DefinitionError
  /-- The path gives no name. -/
  | badPath (path : Path) (fault : NameFault)
  /-- The file cannot be read. -/
  | unreadable (path : Path) (cause : OsError)
  /-- The file does not say what a definition says. -/
  | undecodable (path : Path) (cause : DecodeError)
  deriving DecidableEq, Repr

/-- The text of the complaint. -/
def DefinitionError.message : DefinitionError → String
  | badPath path fault => s!"Invalid definition path '{path}': {fault.message}"
  | unreadable path cause => s!"Stale config at '{path}': {cause.message}"
  | undecodable path cause => s!"Stale config at '{path}': {cause.message Yaml.wording}"

namespace Definition

/-- The path one step on from a directory, if the step leads somewhere. The first step of a
relative path starts at the working directory, which has no place in the path. -/
def step (tree : FileTree) (path : Path) (piece : String) : Option Path :=
  let next : Path := if path.text = "." then ⟨piece⟩ else path.join ⟨piece⟩
  let isDots := piece = "." || piece = ".."
  let leads := if isDots then tree.isDirectory path else tree.exists? next
  if leads then some next else none

/-- A directory spelt as it is met on the way to it, if it is there. -/
def reach (tree : FileTree) (directory : Path) : Option Path :=
  let pieces := directory.segments.map String.ofList
  if directory.isAbsolute then (pieces.drop 1).foldlM (step tree) ⟨"/"⟩
  else pieces.foldlM (step tree) ⟨"."⟩

/-- Whether the name is that of a definition's file. -/
def isFileName (name : String) : Bool := ".yaml".toList.isSuffixOf name.toList

/-- The paths of the definitions of a kind, in order. -/
def discover (tree : FileTree) (root : Path) (kind : DefinitionKind) : List Path :=
  match reach tree (root.join ⟨kind.directory⟩) with
  | none => []
  | some directory =>
      match tree.resolve directory with
      | .error _ => []
      | .ok names =>
          (tree.below names).filterMap fun entry =>
            if entry.1.getLast?.any isFileName then
              some (entry.1.foldl (fun path name => path.join ⟨name⟩) directory)
            else none

/-- The name of the definition at a path. -/
def nameOf (root path : Path) : Except DefinitionError String :=
  (DefinitionName.ofPath root path).mapError (.badPath path)

/-- When the file of a definition was changed last. -/
def modifiedAt (tree : FileTree) (path : Path) : Except DefinitionError Instant :=
  (tree.modified path).mapError (.unreadable path)

/-- What the file of a definition says. -/
def readConfig {α : Type} (read : Yaml.Decoder α) (tree : FileTree) (path : Path) :
    Except DefinitionError α := do
  let text ← (tree.readText path).mapError (.unreadable path)
  (Yaml.decodeText read text).mapError (.undecodable path)

/-- Loads the definition at a path. -/
def load {α : Type} (read : Yaml.Decoder α) (tree : FileTree) (root path : Path) :
    Except DefinitionError (Definition α) := do
  let name ← nameOf root path
  let modified ← modifiedAt tree path
  let config ← readConfig read tree path
  return ⟨name, path, modified, config⟩

end Definition

end MetricCatalog
