/-
# Tasks do not disturb each other

In a compile run the buffer of the session is empty whenever a task waits, and
no flush fails, whatever probes answer. Where each probe has one answer, all
orders lead to one catalog, but for identifiers and times. It is the one that
comes of taking the definitions one at a time.
-/

import MetricCatalog.Compile.Dependencies
import MetricCatalog.Proofs.Compile.Agreement
import MetricCatalog.Proofs.Compile.Rounds

namespace MetricCatalog

namespace Compilation

variable {σ γ : Type} {setting : CompileSetting σ γ} {current : Compilation σ}

/-- At every moment of a run, in whatever order its tasks went on, nothing is left to be flushed
and no flush has failed. If every probe has one answer, then the definitions can be taken one at a
time to the end, and a run that is over has led to the same catalog as that does in any order, and
as any other run, but for identifiers and times. -/
theorem run_undisturbed (hdatabases : (setting.databases.map (·.name)).Nodup)
    (hnodes : (setting.nodes.map (·.name)).Nodup) {base : Catalog} {environment : Environment σ}
    (hrun : Run setting (begin setting base environment) current) :
    current.workspace.session.pending = [] ∧ ¬ current.stage.FlushFailed ∧
    ∀ answer : Answering, setting.drivers.Answers setting.steady answer →
      (∀ otherEnvironment : Environment σ, otherEnvironment.files = setting.files →
        setting.steady otherEnvironment →
          ∃ other, OneByOne setting (begin setting base otherEnvironment) other ∧ other.IsOver) ∧
      (current.IsOver → ∀ (other : Compilation σ) (otherEnvironment : Environment σ),
        (Run setting (begin setting base otherEnvironment) other ∨
          OneByOne setting (begin setting base otherEnvironment) other) → other.IsOver →
        Catalog.Alike base current.workspace.session.view other.workspace.session.view) := by
  have hsound := hrun.sound hdatabases hnodes
    (Forecast.silent_holds setting.drivers setting.steady) (sound_begin setting base environment)
  refine ⟨hsound.flushed, hsound.not_flushFailed hnodes, fun answer hanswers => ⟨?_, ?_⟩⟩
  · intro otherEnvironment hfiles hsteady
    exact exists_oneByOne hdatabases hnodes hanswers base hfiles hsteady
  · intro hover other otherEnvironment hother hotherOver
    have hforecast := Forecast.ofAnswers_holds hanswers
    have hbegin (environment : Environment σ) :
        Informed setting answer base (begin setting base environment) :=
      sound_begin setting base environment
    have hotherRun : Run setting (begin setting base otherEnvironment) other :=
      hother.elim id fun hone => hone.run hdatabases hnodes hanswers (hbegin otherEnvironment)
    exact Sound.alike hdatabases hnodes
      (hrun.sound hdatabases hnodes hforecast (hbegin environment))
      (hotherRun.sound hdatabases hnodes hforecast (hbegin otherEnvironment)) hover hotherOver

/-- A repository with three nodes in one database. One of them depends on another. -/
def shopFiles : FileTree :=
  ⟨.ofList [(["shop"], .directory ⟨0, 0⟩), (["shop", "databases"], .directory ⟨0, 0⟩),
    (["shop", "nodes"], .directory ⟨0, 0⟩),
    (["shop", "databases", "main.yaml"], .file (.text "uri: debug://main") ⟨1, 0⟩),
    (["shop", "nodes", "orders.yaml"], .file (.text "expression: SELECT 1 FROM users") ⟨1, 0⟩),
    (["shop", "nodes", "users.yaml"],
      .file (.text "representations: \x7bmain: \x7btable: users\x7d\x7d") ⟨1, 0⟩),
    (["shop", "nodes", "visits.yaml"],
      .file (.text "representations: \x7bmain: \x7btable: visits\x7d\x7d") ⟨1, 0⟩)], []⟩

/-- Its tables. The second one is read sooner. -/
def shopTables : Scripted.State :=
  ((default : Scripted.State).withTable "main" none "users" ⟨[⟨"name", "str"⟩], 5, none⟩).withTable
    "main" none "visits" ⟨[⟨"day", "date"⟩], 3, none⟩

def shopSetting : CompileSetting Sources Connection where
  drivers := Builtin.drivers [.scripted]
  extract := Dependencies.extract
  root := ⟨"shop"⟩
  files := shopFiles
  steady := Scripted.Holds shopTables

/-- A catalog in which one of the nodes is out of date. -/
def shopCatalog : Catalog :=
  { Catalog.empty with
    nodes := .ofList [("users", ⟨default, "users", none, none, [], [], ⟨0, 0⟩, ⟨0, 0⟩⟩)] }

def shopSurroundings (now : Instant) (seed : Nat) : Builtin.Surroundings :=
  ⟨shopFiles, now, seed, ⟨shopTables, .empty⟩⟩

/-- The run of the program. -/
def shopCompiled : Workspace Sources :=
  let indexed := DatabaseTask.indexAll shopSetting.root
    ⟨.start shopCatalog, shopSurroundings ⟨2, 0⟩ 0⟩
  (Repository.compileNodes shopSetting.drivers shopSetting.extract shopSetting.root indexed.2).2

/-- The program reads two tables at the same time. The catalog is the same as if one definition had
been taken at a time, later and with other identifiers. -/
theorem run_undisturbed_shop : ∃ first second : Compilation Sources,
    Run shopSetting (begin shopSetting shopCatalog (shopSurroundings ⟨2, 0⟩ 0)) first ∧
    first.IsOver ∧ first.workspace = shopCompiled ∧
    OneByOne shopSetting (begin shopSetting shopCatalog (shopSurroundings ⟨3, 0⟩ 9)) second ∧
    second.IsOver ∧
    first.workspace.session.pending = [] ∧ ¬ first.stage.FlushFailed ∧
    (first.workspace.session.view.nodes.entries.map fun entry =>
      (entry.1, entry.2.columns.map (·.name), entry.2.createdAt)) =
      [("orders", [], ⟨2, 3000⟩), ("users", ["name"], ⟨0, 0⟩), ("visits", ["day"], ⟨2, 1000⟩)] ∧
    Catalog.Alike shopCatalog first.workspace.session.view second.workspace.session.view := by
  have hdatabases : (shopSetting.databases.map (·.name)).Nodup := by decide +kernel
  have hnodes : (shopSetting.nodes.map (·.name)).Nodup := by decide +kernel
  have hanswers : shopSetting.drivers.Answers shopSetting.steady (Scripted.answering shopTables) :=
    Scripted.drivers_answers shopTables
  have hfiles (now : Instant) (seed : Nat) :
      (shopSurroundings now seed).files = shopSetting.files := rfl
  have hsteady (now : Instant) (seed : Nat) :
      shopSetting.steady (shopSurroundings now seed) := ⟨rfl, rfl⟩
  obtain ⟨first, hfirst, hover, hcompiled⟩ := exists_run_compileNodes hdatabases hnodes hanswers
    shopCatalog (hfiles ⟨2, 0⟩ 0) (hsteady ⟨2, 0⟩ 0) rfl
  obtain ⟨hflushed, hflushes, hanswered⟩ := run_undisturbed hdatabases hnodes hfirst
  obtain ⟨hexists, halike⟩ := hanswered _ hanswers
  obtain ⟨second, hsecond, hsecondOver⟩ := hexists _ (hfiles ⟨3, 0⟩ 9) (hsteady ⟨3, 0⟩ 9)
  refine ⟨first, second, hfirst, hover, hcompiled, hsecond, hsecondOver, hflushed, hflushes, ?_,
    halike hover second _ (Or.inr hsecond) hsecondOver⟩
  rw [hcompiled]
  decide +kernel

end Compilation

end MetricCatalog
