/-
# Logs of changes

A log is made change by change, so a log in two parts is made part by part. The
version of a catalog takes no part in this: no change reads it and none sets it.
-/

import MetricCatalog.Catalog.Change

namespace MetricCatalog

/-- The catalog under another version. -/
def Catalog.withVersion (catalog : Catalog) (version : UInt64) : Catalog :=
  { catalog with version := version }

theorem Mutation.apply_withVersion (catalog : Catalog) (version : UInt64) (mutation : Mutation) :
    mutation.apply (catalog.withVersion version) =
      (mutation.apply catalog).map (·.withVersion version) := by
  cases mutation with
  | createDatabase database =>
      by_cases hfound : catalog.databases.contains database.name <;>
        simp [apply, Catalog.withVersion, hfound, Except.map]
  | dropDatabase name =>
      by_cases hfound : catalog.databases.contains name <;>
        simp [apply, Catalog.withVersion, hfound, Except.map]
  | createNode node =>
      by_cases hfound : catalog.nodes.contains node.name <;>
        simp [apply, Catalog.withVersion, hfound, Except.map]
  | dropNode name =>
      by_cases hfound : catalog.nodes.contains name <;>
        simp [apply, Catalog.withVersion, hfound, Except.map]
  | putQuery query => rfl

namespace Catalog

theorem applyAll_cons (catalog : Catalog) (mutation : Mutation) (log : List Mutation) :
    catalog.applyAll (mutation :: log) = (mutation.apply catalog).bind (·.applyAll log) := rfl

theorem applyAll_cons_eq_ok {catalog next : Catalog} {mutation : Mutation} {log : List Mutation} :
    catalog.applyAll (mutation :: log) = .ok next ↔
      ∃ changed, mutation.apply catalog = .ok changed ∧ changed.applyAll log = .ok next := by
  rw [applyAll_cons]
  cases mutation.apply catalog <;> simp [Except.bind]

theorem applyAll_append (catalog : Catalog) (first second : List Mutation) :
    catalog.applyAll (first ++ second) = (catalog.applyAll first).bind (·.applyAll second) := by
  induction first generalizing catalog with
  | nil => rfl
  | cons mutation rest ih =>
      rw [List.cons_append, applyAll_cons, applyAll_cons]
      cases mutation.apply catalog with
      | error error => rfl
      | ok next => exact ih next

theorem applyAll_withVersion (catalog : Catalog) (version : UInt64) (log : List Mutation) :
    (catalog.withVersion version).applyAll log =
      (catalog.applyAll log).map (·.withVersion version) := by
  induction log generalizing catalog with
  | nil => rfl
  | cons mutation rest ih =>
      rw [applyAll_cons, applyAll_cons, Mutation.apply_withVersion]
      cases mutation.apply catalog with
      | error error => rfl
      | ok next => exact ih next

theorem version_applyAll {catalog next : Catalog} {log : List Mutation}
    (happly : catalog.applyAll log = .ok next) : next.version = catalog.version := by
  have hsame := catalog.applyAll_withVersion catalog.version log
  rw [show catalog.withVersion catalog.version = catalog from rfl, happly] at hsame
  have hnext : next = next.withVersion catalog.version := Except.ok.inj hsame
  calc next.version = (next.withVersion catalog.version).version := congrArg _ hnext
    _ = catalog.version := rfl

end Catalog

end MetricCatalog
