/-
# Results of queries

The output of statements and its form in JSON. A processed query is written with
its results and errors behind its own fields, in one object.
-/

import MetricCatalog.Source.Value

namespace MetricCatalog

/-- The output of one statement. -/
structure StatementResults where
  /-- The text of the statement. -/
  sql : String
  /-- The columns of its rows. -/
  columns : List Column
  /-- The rows, in the order in which the database gave them. -/
  rows : List Row
  /-- The number of rows. -/
  rowCount : Nat
  deriving DecidableEq, Repr

/-- The output of every statement of a query, in order. -/
abbrev QueryResults := List StatementResults

/-- A processed query with its results. -/
structure QueryWithResults where
  /-- The query as it is recorded. -/
  query : Query
  /-- The results, none if the query failed. -/
  results : QueryResults
  errors : List String
  deriving DecidableEq, Repr

namespace Codec

open Json RecordReader

/-- The output of a statement in JSON. -/
def ofStatementResults (results : StatementResults) : Json :=
  Json.record [
    ("sql", .str results.sql),
    ("columns", .arr (results.columns.map ofColumn)),
    ("rows", .arr (results.rows.map fun row => .arr (row.map ofValue))),
    ("row_count", Json.nat results.rowCount)]

/-- The fields of the output of a statement that stands at some depth of its text. -/
def statementResultsReader (level : Nat) : RecordReader Json StatementResults :=
  map (fun (sql, columns, rows, rowCount) => ⟨sql, columns, rows, rowCount⟩)
    (both (required "sql" readString)
    (both (required "columns" (readList (readRecord "struct ColumnMetadata" columnReader)))
    (both (required "rows" (readList (readList (readValue (level + 3)))))
      (required "row_count" (readNat "usize" UInt64.size)))))

/-- Results in JSON. -/
def ofQueryResults (results : QueryResults) : Json := .arr (results.map ofStatementResults)

/-- Reads results that stand at some depth of their text. -/
def readQueryResults (level : Nat) : Decoder QueryResults :=
  readList (readRecord "struct StatementResults" (statementResultsReader (level + 1)))

/-- A processed query in JSON. -/
def ofQueryWithResults (processed : QueryWithResults) : Json :=
  Json.record (queryFields processed.query ++ [
    ("results", ofQueryResults processed.results),
    ("errors", .arr (processed.errors.map .str))])

/-- The fields of a processed query that are not fields of the query itself. -/
def outcomeReader : RecordReader Json (QueryResults × List String) :=
  both (required "results" (readQueryResults 1)) (required "errors" (readList readString))

/-- Fills the fields of the outcome in the order of the text and sets every other field aside,
in the same order. -/
def fillOutcome :
    List (Json × Json) → outcomeReader.Slots →
      Except DecodeError (outcomeReader.Slots × List (Json × Json))
  | [], slots => .ok (slots, [])
  | (.str key, value) :: rest, slots =>
      match outcomeReader.fill? key value slots with
      | some filled => filled.bind (fillOutcome rest)
      | none =>
          if value.canBuffer 1 then
            (fillOutcome rest slots).map fun result =>
              (result.1, (.str key, value) :: result.2)
          else .error .malformed
  | _ :: _, _ => .error .malformed

/-- Reads a processed query. The fields of the query are made sense of after all others. -/
def readQueryWithResults : Decoder QueryWithResults
  | .obj fields => do
      let (slots, others) ← fillOutcome fields outcomeReader.empty
      let (results, errors) ← outcomeReader.finish slots
      let reader := queryReader (readName queryStateNames queryState?)
      let slots ← fillFields reader others reader.empty
      let query ← reader.finish slots
      return ⟨query, results, errors⟩
  | value => .error (value.mismatch "struct QueryWithResults")

end Codec

end MetricCatalog
