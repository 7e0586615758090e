/-
# What comes of reading in batches

A statement whose rows can all be read gives each of them once, in order: in
batches, as one list, and through a cursor. If one of them cannot be read, the
statement fails with the error of the first such row. Either way the reading
ends, wherever the rows come from, if they are finitely many and nothing turns up
behind them. Without an end to the rows there is none to the reading.
-/

import Mathlib.Data.List.Basic
import MetricCatalog.Source.Builtin

namespace MetricCatalog

variable {σ ε α : Type}

/-! ## Rows and errors -/

theorem mapM_id_map_ok (values : List α) :
    (values.map .ok : List (Except ε α)).mapM id = .ok values := by
  rw [List.mapM_map]
  exact List.mapM_pure.trans (congrArg Except.ok (List.map_id values))

theorem mapM_id_map_ok_append (values : List α) (rows : List (Except ε α)) :
    (values.map Except.ok ++ rows).mapM id = (rows.mapM id).map (values ++ ·) := by
  rw [List.mapM_append, mapM_id_map_ok]
  cases rows.mapM id <;> rfl

/-- Collecting rows fails with the first error. -/
theorem mapM_id_append_error (before : List α) (error : ε) (after : List (Except ε α)) :
    (before.map Except.ok ++ Except.error error :: after).mapM id = .error error := by
  rw [mapM_id_map_ok_append, List.mapM_cons]
  rfl

/-! ## What the batches hold -/

namespace Batch

/-- The batches hold these rows, each once and in order, and all of them but the last are full. -/
structure Holds (batches : List (List α)) (rows : List α) : Prop where
  flatten_eq : batches.flatten = rows
  ne_nil : ∀ batch ∈ batches, batch ≠ []
  length_le : ∀ batch ∈ batches, batch.length ≤ size
  length_eq : ∀ batch ∈ batches.dropLast, batch.length = size

theorem holds_nil : Holds ([] : List (List α)) [] := ⟨rfl, by simp, by simp, by simp⟩

/-- A batch in front has to be full if there are rows behind it. -/
theorem Holds.cons {batch rows : List α} {batches : List (List α)} (hholds : Holds batches rows)
    (hsome : batch ≠ []) (hle : batch.length ≤ size) (hfull : rows ≠ [] → batch.length = size) :
    Holds (batch :: batches) (batch ++ rows) where
  flatten_eq := by rw [List.flatten_cons, hholds.flatten_eq]
  ne_nil := List.forall_mem_cons.mpr ⟨hsome, hholds.ne_nil⟩
  length_le := List.forall_mem_cons.mpr ⟨hle, hholds.length_le⟩
  length_eq := by
    cases batches with
    | nil => simp
    | cons first rest =>
        have hmore : rows ≠ [] := by
          rw [← hholds.flatten_eq]
          simp [hholds.ne_nil first]
        exact List.forall_mem_cons.mpr ⟨hfull hmore, hholds.length_eq⟩

/-- How many rows there are says how many are in each batch. -/
theorem Holds.map_length {batches : List (List α)} {rows : List α} (hholds : Holds batches rows) :
    batches.map List.length = List.replicate (rows.length / size) size ++
      if rows.length % size = 0 then [] else [rows.length % size] := by
  obtain ⟨rfl, hsome, hle, hfull⟩ := hholds
  induction batches with
  | nil => simp
  | cons batch batches ih =>
      rw [List.forall_mem_cons] at hsome hle
      cases batches with
      | nil =>
          have hflat : [batch].flatten.length = batch.length := by simp
          have hpositive : batch.length ≠ 0 := Nat.ne_of_gt (List.length_pos_iff.mpr hsome.1)
          rw [hflat, List.map_singleton]
          rcases Nat.lt_or_eq_of_le hle.1 with hless | hequal
          · rw [Nat.div_eq_of_lt hless, Nat.mod_eq_of_lt hless, if_neg hpositive]
            rfl
          · rw [hequal]
            rfl
      | cons first rest =>
          rw [List.dropLast_cons_cons, List.forall_mem_cons] at hfull
          have hflat : (batch :: first :: rest).flatten.length =
              (first :: rest).flatten.length + size := by
            rw [List.flatten_cons, List.length_append, hfull.1, Nat.add_comm]
          rw [List.map_cons, ih hsome.2 hle.2 hfull.2, hflat, hfull.1,
            Nat.add_div_right _ (by decide), Nat.add_mod_right, List.replicate_succ]
          rfl

/-! ## Reading to the end -/

variable {next : Supply σ ε α} {state : σ} {rows : List (Except ε α)}

/-- What a reading comes to that has put some batches by: the first error, or all rows that it has
come upon since. A pass takes a batch of them and leaves the others to the later passes. -/
theorem readOn_cases (hyields : next.Yields state rows) (earlier : List (List α))
    (hends : Ends next state) :
    (∃ error, rows.mapM id = .error error ∧ readOn next earlier state hends = .error error) ∨
      ∃ values batches, rows.mapM id = .ok values ∧ Holds batches values ∧
        readOn next earlier state hends = .ok (earlier ++ batches) := by
  fun_induction readOn next earlier state hends generalizing rows with
  | case1 earlier state hends error later hpass =>
      have htaken := take_cases hyields size
      rw [hpass] at htaken
      obtain ⟨before, after, rfl⟩ := htaken
      exact Or.inl ⟨error, mapM_id_append_error before error after, rfl⟩
  | case2 earlier state hends later hpass =>
      have htaken := take_cases hyields size
      rw [hpass] at htaken
      obtain ⟨rest, hrows, -, -, hfull⟩ := htaken
      have hnone : rest = [] := Classical.byContradiction fun hmore => by
        simpa [size] using hfull hmore
      rw [hrows, hnone]
      exact Or.inr ⟨[], [], rfl, holds_nil, by rw [List.append_nil]⟩
  | case3 earlier state hends row batch later hpass ih =>
      have htaken := take_cases hyields size
      rw [hpass] at htaken
      obtain ⟨rest, hrows, hlater, hle, hfull⟩ := htaken
      rw [hrows, mapM_id_map_ok_append]
      rcases ih hlater with ⟨error, hrest, hread⟩ | ⟨values, batches, hrest, hholds, hread⟩
      · rw [hrest]
        exact Or.inl ⟨error, rfl, hread⟩
      · rw [hrest]
        refine Or.inr ⟨row :: batch ++ values, (row :: batch) :: batches, rfl, ?_, ?_⟩
        · refine hholds.cons (List.cons_ne_nil row batch) hle fun hsome => hfull ?_
          rintro rfl
          cases hrest
          exact hsome rfl
        · rw [hread, List.append_assoc]
          rfl

theorem read_of_values {values : List α} (hyields : next.Yields state (values.map .ok))
    (hends : Ends next state) :
    ∃ batches, read next state hends = .ok batches ∧ Holds batches values := by
  have hcases := readOn_cases hyields [] hends
  rw [mapM_id_map_ok] at hcases
  rcases hcases with ⟨error, hrows, -⟩ | ⟨same, batches, hrows, hholds, hread⟩
  · cases hrows
  · obtain rfl := Except.ok.inj hrows
    exact ⟨batches, hread, hholds⟩

theorem read_of_error {before : List α} {error : ε} {after : List (Except ε α)}
    (hyields : next.Yields state (before.map .ok ++ .error error :: after))
    (hends : Ends next state) : read next state hends = .error error := by
  have hcases := readOn_cases hyields [] hends
  rw [mapM_id_append_error] at hcases
  rcases hcases with ⟨same, hrows, hread⟩ | ⟨values, -, hrows, -, -⟩
  · obtain rfl := Except.error.inj hrows
    exact hread
  · cases hrows

/-- A batch from a supply that never runs out is full. -/
theorem take_of_endless (hendless : ∀ state, ∃ row, (next state).1 = some (.ok row)) (n : Nat)
    (state : σ) : ∃ batch, (take next n state).1 = .ok batch ∧ batch.length = n := by
  induction n generalizing state with
  | zero => exact ⟨[], rfl, rfl⟩
  | succ n ih =>
      obtain ⟨row, hrow⟩ := hendless state
      obtain ⟨batch, hbatch, hlength⟩ := ih (next state).2
      generalize hnext : next state = answered at hrow hbatch
      obtain ⟨answer, left⟩ := answered
      obtain rfl : answer = some (.ok row) := hrow
      refine ⟨row :: batch, ?_, congrArg (· + 1) hlength⟩
      simp only [take, hnext]
      rw [hbatch]
      rfl

/-- If there is no end to the rows, there is none to the reading. -/
theorem not_ends_of_endless (hendless : ∀ state, ∃ row, (next state).1 = some (.ok row))
    (state : σ) : ¬ Ends next state := by
  intro hends
  induction hends with
  | intro state hlater ih =>
      obtain ⟨batch, hbatch, hlength⟩ := take_of_endless hendless size state
      cases batch with
      | nil => cases hlength
      | cons row batch => exact ih (take next size state).2 ⟨row, batch, Prod.ext hbatch rfl⟩

end Batch

/-! ## Running a statement -/

namespace Embedded.Prepared

section

variable {next : Supply σ ε α} {statement : Prepared σ}

theorem query_of_values {values : List α}
    (hyields : next.Yields statement.supply (values.map .ok))
    (hends : Batch.Ends next statement.supply) :
    ∃ batches, statement.query next hends = .ok ⟨statement.columns, batches⟩ ∧
      Batch.Holds batches values := by
  obtain ⟨batches, hread, hholds⟩ := Batch.read_of_values hyields hends
  refine ⟨batches, ?_, hholds⟩
  rw [query, hread]
  rfl

theorem query_of_error {before : List α} {error : ε} {after : List (Except ε α)}
    (hyields : next.Yields statement.supply (before.map .ok ++ .error error :: after))
    (hends : Batch.Ends next statement.supply) : statement.query next hends = .error error := by
  rw [query, Batch.read_of_error hyields hends]
  rfl

theorem queryAll_of_values {values : List α}
    (hyields : next.Yields statement.supply (values.map .ok))
    (hends : Batch.Ends next statement.supply) : statement.queryAll next hends = .ok values := by
  obtain ⟨batches, hquery, hholds⟩ := query_of_values hyields hends
  rw [queryAll, hquery, ← hholds.flatten_eq]
  rfl

end

variable {next : Supply σ ε Row} {statement : Prepared σ}

theorem execute_of_values {values : List Row}
    (hyields : next.Yields statement.supply (values.map .ok))
    (hends : Batch.Ends next statement.supply) :
    statement.execute next hends =
      .ok ⟨statement.columns.map fun (name, type) => ⟨name, type⟩, values.map .ok⟩ := by
  obtain ⟨batches, hquery, hholds⟩ := query_of_values hyields hends
  rw [execute, hquery, ← hholds.flatten_eq]
  rfl

/-- The reading of a statement's rows ends. If all of them can be read, they are what the statement
gives, in batches of which none is empty and all but the last are full, as a list, and through a
cursor. If one of them cannot be read, it gives no rows but the first error. -/
theorem query_outcome {rows : List (Except ε Row)}
    (hyields : next.Yields statement.supply rows) :
    ∃ hends : Batch.Ends next statement.supply,
      (∀ values : List Row, rows = values.map .ok →
        (∃ batches, statement.query next hends = .ok ⟨statement.columns, batches⟩ ∧
          batches.flatten = values ∧ (∀ batch ∈ batches, batch ≠ []) ∧
          (∀ batch ∈ batches, batch.length ≤ 1000) ∧
          ∀ batch ∈ batches.dropLast, batch.length = 1000) ∧
        statement.queryAll next hends = .ok values ∧
        statement.execute next hends =
          .ok ⟨statement.columns.map fun (name, type) => ⟨name, type⟩, values.map .ok⟩) ∧
      ∀ (before : List Row) (error : ε) (after : List (Except ε Row)),
        rows = before.map .ok ++ .error error :: after →
        statement.query next hends = .error error ∧
        statement.queryAll next hends = .error error ∧
        statement.execute next hends = .error error := by
  have hends := Batch.ends_of_yields hyields
  refine ⟨hends, ?_, ?_⟩
  · rintro values rfl
    obtain ⟨batches, hquery, hholds⟩ := query_of_values hyields hends
    exact ⟨⟨batches, hquery, hholds.flatten_eq, hholds.ne_nil, hholds.length_le,
      hholds.length_eq⟩, queryAll_of_values hyields hends, execute_of_values hyields hends⟩
  · rintro before error after rfl
    have hquery := query_of_error hyields hends
    refine ⟨hquery, ?_, ?_⟩
    · rw [queryAll, hquery]
      rfl
    · rw [execute, hquery]
      rfl

/-- The rows of a count, each with one field. -/
def counted (n : Nat) : List Row := (List.range n).map fun i => [.int (Int64.ofNat i)]

theorem length_counted (n : Nat) : (counted n).length = n := by
  rw [counted, List.length_map, List.length_range]

/-- A count that comes to its end. -/
def wholeCount : Prepared (List (Except String Row)) := ⟨[("v", none)], (counted 2500).map .ok⟩

/-- A count that breaks off where a batch ends. -/
def brokenCount : Prepared (List (Except String Row)) :=
  ⟨[("v", none)], (counted 1000).map .ok ++ [.error "interrupted"]⟩

/-- Two full batches and a half come of 2500 rows, and nothing of 1000 rows with an error behind. -/
theorem query_outcome_counted :
    (Supply.ofList.Yields wholeCount.supply wholeCount.supply ∧
      wholeCount.supply = (counted 2500).map .ok ∧
      ∃ hends batches, wholeCount.query .ofList hends = .ok ⟨wholeCount.columns, batches⟩ ∧
        batches.flatten = counted 2500 ∧ batches.map List.length = [1000, 1000, 500]) ∧
      Supply.ofList.Yields brokenCount.supply brokenCount.supply ∧
      brokenCount.supply = (counted 1000).map .ok ++ [.error "interrupted"] ∧
      ∃ hends, brokenCount.execute .ofList hends = .error "interrupted" := by
  have hwhole := Supply.yields_ofList wholeCount.supply
  have hbroken := Supply.yields_ofList brokenCount.supply
  have hrows : wholeCount.supply = (counted 2500).map .ok := by rw [wholeCount]
  have herror : brokenCount.supply = (counted 1000).map .ok ++ [.error "interrupted"] := by
    rw [brokenCount]
  obtain ⟨hends, hvalues, -⟩ := query_outcome hwhole
  obtain ⟨⟨batches, hquery, hflatten, hsome, hle, hfull⟩, -, -⟩ := hvalues (counted 2500) hrows
  have hlengths := Batch.Holds.map_length ⟨hflatten, hsome, hle, hfull⟩
  rw [length_counted] at hlengths
  obtain ⟨hbreaks, -, hfails⟩ := query_outcome hbroken
  obtain ⟨-, -, hexecute⟩ := hfails (counted 1000) "interrupted" [] herror
  exact ⟨⟨hwhole, hrows, hends, batches, hquery, hflatten, hlengths⟩, hbroken, herror, hbreaks,
    hexecute⟩

end Embedded.Prepared

/-! ## Asking an embedded database -/

namespace Builtin

variable {connection : Connection} {environment : Surroundings} {database : Embedded.Database}

/-- All rows of a statement come back, as the database gives them. -/
theorem executeEmbedded_eq {sql : String} {outcome : Embedded.Outcome}
    {changed : Embedded.Database} (hdatabase : databaseOf environment connection = .ok database)
    (hexecute : database.execute sql = .ok (outcome, changed)) :
    executeEmbedded connection sql environment =
      (.ok ⟨outcome.columns.map fun (name, type) => ⟨name, type⟩, outcome.rows.map .ok⟩,
        if changed.statements = database.statements then environment
        else keepDatabase environment connection changed) := by
  have hcursor := Embedded.Prepared.execute_of_values (Supply.yields_ofList
    (⟨outcome.columns, outcome.rows.map .ok⟩ :
      Embedded.Prepared (List (Except String Row))).supply) (Batch.ends_ofList _)
  simp only [executeEmbedded, hdatabase, hexecute, hcursor, bind, Except.bind, Except.mapError]
  rfl

/-- All columns of a table come back. -/
theorem describeEmbedded_eq {table : String} {schema : Option String}
    {columns : List (String × String)}
    (hdatabase : databaseOf environment connection = .ok database)
    (hdescribe : database.describe schema table = .ok columns) :
    describeEmbedded connection table schema environment =
      if columns.isEmpty then .error (.tableNotFound (qualifiedName schema table))
      else .ok (columns.map fun (name, type) => ⟨name, type⟩) := by
  have hall := Embedded.Prepared.queryAll_of_values (Supply.yields_ofList
    (⟨[("name", none), ("type", none)], columns.map .ok⟩ :
      Embedded.Prepared (List (Except String (String × String)))).supply) (Batch.ends_ofList _)
  simp only [describeEmbedded, hdatabase, hdescribe, hall, bind, Except.bind, Except.mapError]

end Builtin

end MetricCatalog
