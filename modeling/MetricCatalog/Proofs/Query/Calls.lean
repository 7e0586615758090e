/-
# The calls of a query

Drivers can be made to note every connection they open and every statement they
are given, with whether it went well. The notes are only read by whoever looks at
them: a query comes out the same on the drivers without them. What the notes of
a query look like follows the statements, one after the other, up to the first
that fails.
-/

import MetricCatalog.Query.Execution

namespace MetricCatalog

/-- A call of a driver, and whether it went well. A statement went well when all its rows could be
read. -/
inductive DriverCall
  | connected (uri : String) (succeeded : Bool)
  | executed (sql : String) (succeeded : Bool)
  deriving DecidableEq, Repr

namespace DriverCall

def succeeded : DriverCall → Bool
  | connected _ succeeded | executed _ succeeded => succeeded

/-- The statement that was handed over. -/
def statement? : DriverCall → Option String
  | connected _ _ => none
  | executed sql _ => some sql

end DriverCall

/-- The statements that were handed over, in order. -/
def executedIn (calls : List DriverCall) : List String := calls.filterMap DriverCall.statement?

variable {σ γ : Type}

namespace Environment

/-- The surroundings with notes beside what the databases keep. -/
def noting (environment : Environment σ) (calls : List DriverCall) :
    Environment (σ × List DriverCall) :=
  { environment with sources := (environment.sources, calls) }

/-- The surroundings without the notes. -/
def plain (environment : Environment (σ × List DriverCall)) : Environment σ :=
  { environment with sources := environment.sources.1 }

end Environment

/-- The drivers, with a note of every call. -/
def Drivers.noting (drivers : Drivers (Environment σ) γ) :
    Drivers (Environment (σ × List DriverCall)) γ where
  connect uri environment :=
    let calls := environment.sources.2
    let (result, environment) := drivers.connect uri environment.plain
    (result, environment.noting (calls ++ [.connected uri result.toBool]))
  introspect connection table schema environment :=
    let calls := environment.sources.2
    let (probe, environment) := drivers.introspect connection table schema environment.plain
    let finish (environment : Environment (σ × List DriverCall)) :=
      let (columns, after) := probe.finish environment.plain
      (columns, after.noting environment.sources.2)
    (⟨probe.wait, finish⟩, environment.noting calls)
  execute connection sql environment :=
    let calls := environment.sources.2
    let (result, environment) := drivers.execute connection sql environment.plain
    let rows := result.bind Cursor.collect
    (result, environment.noting (calls ++ [.executed sql rows.toBool]))
  classify := drivers.classify
  columnType := drivers.columnType

/-- What running statements comes to, and the calls it takes. -/
inductive Runs (uri : String) :
    List String → Except QueryError QueryResults → List DriverCall → Prop
  | nil : Runs uri [] (.ok []) []
  | unreachable (sql : String) (rest : List String) (error : SourceError) :
      Runs uri (sql :: rest) (.error (.statement sql error)) [.connected uri false]
  | fail (sql : String) (rest : List String) (error : SourceError) :
      Runs uri (sql :: rest) (.error (.statement sql error))
        [.connected uri true, .executed sql false]
  | next (sql : String) (columns : List Column) (rows : List Row) {rest : List String}
      {outcome : Except QueryError QueryResults} {calls : List DriverCall}
      (hrest : Runs uri rest outcome calls) :
      Runs uri (sql :: rest) (outcome.map (⟨sql, columns, rows, rows.length⟩ :: ·))
        (.connected uri true :: .executed sql true :: calls)

theorem Drivers.noting_connect (drivers : Drivers (Environment σ) γ) (uri : String)
    (environment : Environment σ) (calls : List DriverCall) :
    drivers.noting.connect uri (environment.noting calls) =
      ((drivers.connect uri environment).1, (drivers.connect uri environment).2.noting
        (calls ++ [.connected uri (drivers.connect uri environment).1.toBool])) := rfl

theorem Drivers.noting_execute (drivers : Drivers (Environment σ) γ) (connection : γ)
    (sql : String) (environment : Environment σ) (calls : List DriverCall) :
    drivers.noting.execute connection sql (environment.noting calls) =
      ((drivers.execute connection sql environment).1,
        (drivers.execute connection sql environment).2.noting (calls ++ [.executed sql
          ((drivers.execute connection sql environment).1.bind Cursor.collect).toBool])) := rfl

namespace QueryService

/-- A statement takes one call or two, and comes out the same with the notes. -/
theorem runStatement_noting (drivers : Drivers (Environment σ) γ) (uri sql : String)
    (environment : Environment σ) (calls : List DriverCall) :
    ∃ made, runStatement drivers.noting uri sql (environment.noting calls) =
        ((runStatement drivers uri sql environment).1,
          (runStatement drivers uri sql environment).2.noting (calls ++ made)) ∧
      ((∃ error, (runStatement drivers uri sql environment).1 = .error error ∧
          (made = [.connected uri false] ∨ made = [.connected uri true, .executed sql false])) ∨
        ∃ columns rows,
          (runStatement drivers uri sql environment).1 = .ok ⟨sql, columns, rows, rows.length⟩ ∧
          made = [.connected uri true, .executed sql true]) := by
  rw [runStatement, runStatement, Drivers.noting_connect]
  obtain ⟨connected, opened⟩ := drivers.connect uri environment
  cases connected with
  | error error =>
      exact ⟨[.connected uri false], rfl, Or.inl ⟨error, rfl, Or.inl rfl⟩⟩
  | ok connection =>
      simp only [Drivers.noting_execute]
      obtain ⟨executed, after⟩ := drivers.execute connection sql opened
      cases executed with
      | error error =>
          refine ⟨[.connected uri true, .executed sql false], ?_, Or.inl ⟨error, rfl, Or.inr rfl⟩⟩
          rw [List.append_assoc]
          rfl
      | ok cursor =>
          simp only [List.append_assoc]
          refine ⟨[.connected uri true, .executed sql cursor.collect.toBool], rfl, ?_⟩
          cases cursor.collect with
          | error error => exact Or.inl ⟨error, rfl, Or.inr rfl⟩
          | ok rows => exact Or.inr ⟨_, rows, rfl, rfl⟩

theorem runStatements_noting (drivers : Drivers (Environment σ) γ) (uri : String)
    (statements : List String) (environment : Environment σ) (calls : List DriverCall) :
    ∃ made, runStatements drivers.noting uri statements (environment.noting calls) =
        ((runStatements drivers uri statements environment).1,
          (runStatements drivers uri statements environment).2.noting (calls ++ made)) ∧
      Runs uri statements (runStatements drivers uri statements environment).1 made := by
  induction statements generalizing environment calls with
  | nil => exact ⟨[], by rw [List.append_nil]; rfl, .nil⟩
  | cons sql rest ih =>
      obtain ⟨made, hnoting, hcases⟩ := runStatement_noting drivers uri sql environment calls
      rw [runStatements, runStatements, hnoting]
      generalize runStatement drivers uri sql environment = first at hcases
      obtain ⟨result, after⟩ := first
      rcases hcases with ⟨error, hresult, hmade⟩ | ⟨columns, rows, hresult, rfl⟩
      · change result = _ at hresult
        subst hresult
        refine ⟨made, rfl, ?_⟩
        rcases hmade with rfl | rfl
        · exact .unreachable sql rest error
        · exact .fail sql rest error
      · change result = _ at hresult
        subst hresult
        obtain ⟨others, hothers, hruns⟩ :=
          ih after (calls ++ [.connected uri true, .executed sql true])
        simp only [hothers]
        refine ⟨_ :: _ :: others, ?_, .next sql columns rows hruns⟩
        rw [List.append_assoc]
        rfl

end QueryService

/-! ## What the notes tell -/

namespace Runs

variable {uri : String} {statements : List String} {calls : List DriverCall}
  {outcome : Except QueryError QueryResults}

/-- The statements are handed over in order. -/
theorem executedIn_prefix (hruns : Runs uri statements outcome calls) :
    executedIn calls <+: statements := by
  induction hruns with
  | nil => exact List.prefix_refl _
  | unreachable => exact List.nil_prefix
  | fail sql rest => exact List.prefix_append [sql] rest
  | next sql _ _ _ ih => exact List.prefix_cons_inj sql |>.mpr ih

/-- Nothing is called behind a call that failed. -/
theorem succeeded_of_mem_dropLast (hruns : Runs uri statements outcome calls) :
    ∀ call ∈ calls.dropLast, call.succeeded = true := by
  induction hruns with
  | nil | unreachable => simp
  | fail => simp [DriverCall.succeeded]
  | @next sql _ _ _ _ calls _ ih =>
      intro call hcall
      cases calls with
      | nil =>
          rw [List.mem_singleton.mp hcall]
          rfl
      | cons other calls =>
          rw [List.dropLast_cons_cons, List.dropLast_cons_cons] at hcall
          rcases List.mem_cons.mp hcall with rfl | hcall
          · rfl
          · rcases List.mem_cons.mp hcall with rfl | hcall
            · rfl
            · exact ih call hcall

/-- If all statements went well, there is a result for each, and each was handed over. -/
theorem of_ok (hruns : Runs uri statements outcome calls) {results : QueryResults}
    (hok : outcome = .ok results) :
    results.map (·.sql) = statements ∧ (∀ result ∈ results, result.rowCount = result.rows.length) ∧
      executedIn calls = statements ∧ ∀ call ∈ calls, call.succeeded = true := by
  induction hruns generalizing results with
  | nil =>
      cases hok
      simp [executedIn]
  | unreachable | fail => cases hok
  | @next sql columns rows rest outcome calls _ ih =>
      cases outcome with
      | error => cases hok
      | ok others =>
          cases hok
          obtain ⟨hsql, hcounts, hexecuted, hcalls⟩ := ih rfl
          refine ⟨by rw [List.map_cons, hsql], ?_, ?_, ?_⟩
          · intro result hresult
            rcases List.mem_cons.mp hresult with rfl | hresult
            · rfl
            · exact hcounts result hresult
          · exact congrArg (sql :: ·) hexecuted
          · intro call hcall
            rcases List.mem_cons.mp hcall with rfl | hcall
            · rfl
            · rcases List.mem_cons.mp hcall with rfl | hcall
              · rfl
              · exact hcalls call hcall

end Runs

end MetricCatalog
