/-
# Where results are kept

Results are kept as texts under the identifiers of their queries, in memory or
as files of one directory.
-/

import MetricCatalog.Files.Tree

namespace MetricCatalog

/-- A place where results are kept. -/
inductive ResultsBackend
  /-- In memory. -/
  | memory (entries : KeyMap String String)
  /-- As files of a directory. -/
  | directory (path : Path)
  deriving DecidableEq, Repr, Inhabited

/-- Why results cannot be kept or found. -/
inductive BackendError
  | write (key : String) (cause : OsError)
  | read (key : String) (cause : OsError)
  deriving DecidableEq, Repr

namespace BackendError

/-- The text of the complaint. -/
def message : BackendError → String
  | write key cause => s!"Failed to write results for '{key}': {cause.message}"
  | read key cause => s!"Failed to read results for '{key}': {cause.message}"

/-- The complaint of the system behind it. -/
def cause : BackendError → OsError
  | write _ cause => cause
  | read _ cause => cause

end BackendError

namespace ResultsBackend

/-- An empty place in memory. -/
def inMemory : ResultsBackend := .memory .empty

/-- The file for a key. -/
def fileFor (directory : Path) (key : String) : Path := directory.join ⟨s!"{key}.json"⟩

/-- Keeps a text under a key, in place of one that was there. -/
def add (backend : ResultsBackend) (key text : String) (now : Instant) (files : FileTree) :
    Except BackendError Unit × ResultsBackend × FileTree :=
  match backend with
  | memory entries => (.ok (), .memory (entries.insert key text), files)
  | directory path =>
      match files.makeDirectories path now with
      | .error error => (.error (.write key error), backend, files)
      | .ok files =>
          match files.write (fileFor path key) (.text text) now with
          | .error error => (.error (.write key error), backend, files)
          | .ok files => (.ok (), backend, files)

/-- The text under a key. -/
def get (backend : ResultsBackend) (key : String) (files : FileTree) :
    Except BackendError (Option String) :=
  match backend with
  | memory entries => .ok (entries.find? key)
  | directory path =>
      match files.readText (fileFor path key) with
      | .ok text => .ok (some text)
      | .error .notFound => .ok none
      | .error error => .error (.read key error)

end ResultsBackend

end MetricCatalog
