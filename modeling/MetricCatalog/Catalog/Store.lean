/-
# The store of the catalog

A store holds the latest committed catalog, in memory or also in a file. It
changes by commits only, and a commit that fails changes nothing in it.
-/

import MetricCatalog.Catalog.Session
import MetricCatalog.Catalog.Storage
import MetricCatalog.Environment

namespace MetricCatalog

/-- Why a store cannot be opened or a commit cannot be made. -/
inductive StoreError
  /-- The changes do not fit the catalog. -/
  | conflict (error : CatalogError)
  /-- The catalog cannot be read or written. -/
  | storage (error : StorageError)
  deriving DecidableEq, Repr

/-- The text of the complaint. -/
def StoreError.message : StoreError → String
  | conflict error => error.message
  | storage error => error.message

/-- The latest committed catalog and where it is kept. -/
structure Store where
  committed : Catalog
  /-- The file it is kept in, if it is not only in memory. -/
  storage : Option Storage
  deriving DecidableEq, Repr, Inhabited

namespace Store

variable {σ : Type}

/-- An empty store in memory. -/
def inMemory : Store := ⟨.empty, none⟩

/-- Opens the store at a path, with the catalog that is there. -/
def openAt (path : Path) (environment : Environment σ) :
    Except StoreError Store × Environment σ :=
  let (process, environment) := environment.newId
  let store := (Storage.read environment.files path).map fun catalog =>
    (⟨catalog.getD .empty, some ⟨path, process⟩⟩ : Store)
  (store.mapError .storage, environment)

/-- Opens the store at a path, or an empty one in memory. -/
def openOptional (path : Option Path) (environment : Environment σ) :
    Except StoreError Store × Environment σ :=
  match path with
  | some path => openAt path environment
  | none => (.ok inMemory, environment)

/-- Starts a session on the latest catalog. -/
def begin (store : Store) : Session := .start store.committed

/-- The catalog after a log has been replayed on the latest one. -/
def replay (store : Store) (log : List Mutation) : Except CatalogError Catalog :=
  (store.committed.applyAll log).map fun catalog => { catalog with version := catalog.version + 1 }

/-- Replays a log on the latest catalog, writes the result and makes it the latest one. -/
def commitLog (store : Store) (log : List Mutation) (environment : Environment σ) :
    Except StoreError Catalog × Store × Environment σ :=
  match store.replay log with
  | .error error => (.error (.conflict error), store, environment)
  | .ok catalog =>
      match store.storage with
      | none => (.ok catalog, { store with committed := catalog }, environment)
      | some storage =>
          let (result, files) := storage.write environment.now environment.files catalog
          let environment := { environment with files := files }
          match result with
          | .ok () => (.ok catalog, { store with committed := catalog }, environment)
          | .error error => (.error (.storage error), store, environment)

/-- Flushes a session and commits its log. -/
def commit (store : Store) (session : Session) (environment : Environment σ) :
    Except StoreError Catalog × Store × Environment σ :=
  match session.flush with
  | (.error error, _) => (.error (.conflict error), store, environment)
  | (.ok (), session) => store.commitLog session.log environment

end Store

end MetricCatalog
